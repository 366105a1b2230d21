/-
# What a USSD caller is shown

The gateway sends the whole text of a USSD session with every request, and
`ussdTicket` builds the menus again each time, from the tables as they are by
then. The numbers the caller entered are read by Python's list index: what a
menu shows under a number is not always what the index takes, for an index may
be negative and count from the end.

A session is its last request and what the earlier ones found. A purchase it
makes is for what it has shown, and it turns down what it has not shown, where
nothing under the numbers changed meanwhile and no number is read from the end.

Key definitions: `entry`, `Session`, `Session.Displayed`, `Session.Rejects`.
Key theorems: `ussdTicket_created`, `menus_hold`.
-/
import FlexyVotes.Payments.Tickets

namespace FlexyVotes
namespace Menus

open Transactions Audit Payments Tickets

/-! ### Numbers -/

section Numbers

variable {α : Type} {l : List α} {n : ℤ} {a : α}

/-- What a menu shows under a number. -/
def entry (l : List α) (n : ℤ) : Option α := if 1 ≤ n then l[(n - 1).toNat]? else none

theorem entry_pos (h : entry l n = some a) : 1 ≤ n := by
  unfold entry at h
  split at h
  · assumption
  · cases h

/-- From one on, the index takes what is shown. -/
theorem pyIndex_eq_entry (h : 1 ≤ n) : pyIndex l (n - 1) = entry l n := by
  unfold pyIndex entry
  rw [if_pos h, if_pos (by omega)]

theorem entry_eq_none_iff : entry l n = none ↔ n < 1 ∨ (l.length : ℤ) < n := by
  unfold entry
  split
  · rw [List.getElem?_eq_none_iff]
    omega
  · exact ⟨fun _ => Or.inl (by omega), fun _ => rfl⟩

/-- The index takes nothing beyond the length, from either end. -/
theorem pyIndex_eq_none_iff : pyIndex l (n - 1) = none ↔ n < 1 - (l.length : ℤ) ∨ (l.length : ℤ) < n := by
  unfold pyIndex
  split
  · rw [List.getElem?_eq_none_iff]
    omega
  · split
    · rw [List.getElem?_eq_none_iff]
      omega
    · exact ⟨fun _ => Or.inl (by omega), fun _ => rfl⟩

variable (E : Env)

/-- `l[int(raw) - 1]`. -/
def taken (l : List α) (raw : String) : Option α := (E.parseInt raw).bind fun n => pyIndex l (n - 1)

/-- What is shown under the number entered. -/
def displayed (l : List α) (raw : String) : Option α := (E.parseInt raw).bind (entry l)

variable {E} {raw : String}

theorem taken_of_displayed (h : displayed E l raw = some a) : taken E l raw = some a := by
  obtain ⟨n, hn, he⟩ := Option.bind_eq_some_iff.mp h
  exact Option.bind_eq_some_iff.mpr ⟨n, hn, (pyIndex_eq_entry (entry_pos he)).trans he⟩

theorem displayed_of_taken (hpos : ∀ n, E.parseInt raw = some n → 1 ≤ n) (h : taken E l raw = some a) :
    displayed E l raw = some a := by
  obtain ⟨n, hn, ht⟩ := Option.bind_eq_some_iff.mp h
  exact Option.bind_eq_some_iff.mpr ⟨n, hn, (pyIndex_eq_entry (hpos n hn)).symm.trans ht⟩

end Numbers

/-! ### Sessions -/

variable (E : Env)

/-- The event the inputs of a session select. -/
def chosenEvent (inputs : List String) (db : Database) : Option (ℕ × EventRow) :=
  inputs[1]?.bind (taken E (ussdEvents db))

/-- The ticket the inputs of a session select. -/
def chosenTicket (inputs : List String) (db : Database) : Option (ℕ × TicketRow) :=
  (chosenEvent E inputs db).bind fun e => inputs[2]?.bind (taken E (ticketsOf db e.1))

/-- The currency and the price of one selected ticket. -/
def price (inputs : List String) (db : Database) : Option (String × ℕ) :=
  (chosenEvent E inputs db).bind fun e => (chosenTicket E inputs db).map fun t => (e.2.currency, t.2.price)

/-- The currency and the total a screen shows. -/
def total (inputs : List String) (db : Database) : Option (String × ℕ) :=
  (price E inputs db).bind fun c => (inputs[3]?.bind E.parseInt).map fun n => (c.1, c.2 * n.toNat)

/-- A session of `_ussd_ticket`: its last request, with all inputs, the tables
it finds, and for each number of inputs the tables the request with so many
found, if there was one. -/
structure Session where
  request : UssdRequest
  db : Database
  shown : ℕ → Option Database

/-- The request with the first inputs. -/
def Session.step (s : Session) (i : ℕ) : UssdRequest := { s.request with inputs := s.request.inputs.take i }

/-- The last request, alone. -/
def Session.outcome (s : Session) : Outcome Row Note :=
  (ussdTicket E s.request fun _ => .halt).exec s.db [] []

/-- The session makes a purchase. -/
def Session.Created (s : Session) (row : PurchaseRow) : Prop :=
  s.db.row (.purchase s.request.reference) = none ∧
    (s.outcome E).db.row (.purchase s.request.reference) = some row

/-- The request is answered by a screen: the run is that of what comes after. -/
def Replies (q : UssdRequest) (db : Database) (text : String) : Prop :=
  ∀ (k : Except Failure Reply → Program) (log : List Note),
    (ussdTicket E q k).exec db [] log = (k (.ok (.screen text))).exec db [] log

/-- The request is answered by a rejection of the event or of the ticket. -/
def Rejected (q : UssdRequest) (db : Database) : Prop :=
  Replies E q db "END Invalid event selected." ∨ Replies E q db "END Invalid ticket selected."

/-- The purchase is for the event and the ticket that were shown under the
numbers entered, and what is charged is the total of both screens that show one. -/
structure Session.Displayed (s : Session) (row : PurchaseRow) : Prop where
  event : ∃ db raw e, s.shown 1 = some db ∧ s.request.inputs[1]? = some raw ∧
    displayed E (ussdEvents db) raw = some (row.event, e)
  ticket : ∃ db e raw t, s.shown 2 = some db ∧ chosenEvent E s.request.inputs db = some e ∧
    s.request.inputs[2]? = some raw ∧ displayed E (ticketsOf db e.1) raw = some (row.ticket, t)
  total : ∃ e amount, s.db.row (.event row.event) = some e ∧
    (s.outcome E).log = [.charging s.request.reference amount] ∧
    ∀ i, i = 4 ∨ i = 5 → ∃ db, s.shown i = some db ∧ total E s.request.inputs db = some (e.currency, amount)

/-- A number that the menu before did not show is rejected. -/
structure Session.Rejects (s : Session) : Prop where
  event : ∀ db db' raw, s.shown 1 = some db → s.shown 2 = some db' → s.request.inputs[1]? = some raw →
    displayed E (ussdEvents db) raw = none → Rejected E (s.step 2) db'
  ticket : ∀ db db' e raw, s.shown 2 = some db → s.shown 3 = some db' →
    chosenEvent E s.request.inputs db = some e → s.request.inputs[2]? = some raw →
    displayed E (ticketsOf db e.1) raw = none → Rejected E (s.step 3) db'

/-- The numbers entered are positive, every screen was shown, and what stands
under the numbers is, at the last request, what it was on the screens. -/
structure Session.Unmoved (s : Session) : Prop where
  numbers : ∀ i, i = 1 ∨ i = 2 → ∀ raw, s.request.inputs[i]? = some raw → ∀ n, E.parseInt raw = some n → 1 ≤ n
  event : ∃ db, s.shown 1 = some db ∧
    (chosenEvent E s.request.inputs db).map (·.1) = (chosenEvent E s.request.inputs s.db).map (·.1)
  ticket : ∃ db, s.shown 2 = some db ∧
    (chosenTicket E s.request.inputs db).map (·.1) = (chosenTicket E s.request.inputs s.db).map (·.1)
  price : ∀ i, i = 4 ∨ i = 5 → ∃ db, s.shown i = some db ∧
    price E s.request.inputs db = price E s.request.inputs s.db

/-- A number that the menu before did not show lies outside the menu as it is
by the next request, counted from either end. -/
structure Session.Within (s : Session) : Prop where
  event : ∀ db db' raw n, s.shown 1 = some db → s.shown 2 = some db' → s.request.inputs[1]? = some raw →
    E.parseInt raw = some n → n < 1 ∨ ((ussdEvents db).length : ℤ) < n →
    n < 1 - ((ussdEvents db').length : ℤ) ∨ ((ussdEvents db').length : ℤ) < n
  ticket : ∀ db db' e e' raw n, s.shown 2 = some db → s.shown 3 = some db' →
    chosenEvent E s.request.inputs db = some e → chosenEvent E s.request.inputs db' = some e' →
    s.request.inputs[2]? = some raw → E.parseInt raw = some n → n < 1 ∨ ((ticketsOf db e.1).length : ℤ) < n →
    n < 1 - ((ticketsOf db' e'.1).length : ℤ) ∨ ((ticketsOf db' e'.1).length : ℤ) < n

variable {E}

/-! ### The last request -/

section Purchase

variable {q : UssdRequest} {db : Database} {row : PurchaseRow}

/-- What leaves the tables as they were records no purchase. -/
theorem left_out {reference : String} {o : Outcome Row Note} (hnone : db.row (.purchase reference) = none)
    (ho : o.db = db) (hrow : o.db.row (.purchase reference) = some row) : False := by
  rw [ho, hnone] at hrow
  cases hrow

/-- A reservation that records a purchase goes on with the rest. -/
theorem reserve_created {ticket : ℕ} {reference : String} {p : PurchaseRow} {k : Program}
    (hnone : db.row (.purchase reference) = none)
    (h : ((reserve ticket reference p .halt (fun _ => .halt) k).exec db [] []).db.row (.purchase reference) = some row) :
    (reserve ticket reference p .halt (fun _ => .halt) k).exec db [] [] =
      k.exec (db.set (.purchase reference) (some p)) [] [] := by
  unfold reserve at h ⊢
  rcases ht : db.row (.ticket ticket) with _ | t
  · rw [Prog.exec_lockRow_none (by simpa using ht)] at h
    exact (left_out hnone rfl h).elim
  · rw [Prog.exec_lockRow (by simpa using ht)] at h ⊢
    dsimp only at h ⊢
    rw [Prog.exec_read] at h ⊢
    by_cases hfull : t.quantityAvailable < reservedCount (db.apply []) ticket + p.quantity
    · rw [if_pos hfull] at h
      exact (left_out hnone rfl h).elim
    · rw [if_neg hfull, Prog.exec_insertOr (by simpa using hnone), Prog.exec_commit]
      rfl

/-- What the gateway answers leaves the purchase for what it is for. -/
theorem charged_exec {reference : String} {p : PurchaseRow} {n : Note} (refused : Bool)
    (h : ((Prog.note n (if refused then failPurchase reference .halt else .halt)).exec
      (db.set (.purchase reference) (some p)) [] []).db.row (.purchase reference) = some row) :
    row.event = p.event ∧ row.ticket = p.ticket ∧
      ((Prog.note n (if refused then failPurchase reference .halt else .halt)).exec
        (db.set (.purchase reference) (some p)) [] []).log = [n] := by
  have hp : ((db.set (.purchase reference) (some p)).apply []).row (.purchase reference) = some p :=
    Db.set_row_self _ _ _
  cases refused with
  | true =>
    have hfail : (failPurchase reference .halt).exec (db.set (.purchase reference) (some p)) [] [n] =
        Prog.halt.commit.exec (db.set (.purchase reference) (some p)) [⟨.purchase reference, some (failed p)⟩] [n] :=
      Prog.exec_update hp rfl
    rw [if_pos rfl, Prog.exec_note, hfail, Prog.exec_commit] at h ⊢
    have hrow : some (failed p) = some row := by simpa [Prog.exec, Db.set_row_self] using h
    cases hrow
    exact ⟨rfl, rfl, rfl⟩
  | false =>
    have hrow : some p = some row := hp.symm.trans h
    cases hrow
    exact ⟨rfl, rfl, rfl⟩

theorem getElem?_of_drop {l rest : List String} {a : String} {i : ℕ} (h : l.drop i = a :: rest) : l[i]? = some a := by
  have hget : (l.drop i)[0]? = l[i]? := List.getElem?_drop
  rw [← hget, h]
  rfl

/-- The order of a session that records a purchase. -/
theorem ussdOrder_created {event : ℕ × EventRow} {ticket : ℕ × TicketRow}
    (hnone : db.row (.purchase q.reference) = none)
    (h : ((ussdOrder E q event ticket fun _ => .halt).exec db [] []).db.row (.purchase q.reference) = some row) :
    ∃ raw n, q.inputs[3]? = some raw ∧ E.parseInt raw = some n ∧ 1 ≤ n ∧ row.event = event.1 ∧
      row.ticket = ticket.1 ∧
      ((ussdOrder E q event ticket fun _ => .halt).exec db [] []).log =
        [.charging q.reference (ticket.2.price * n.toNat)] := by
  unfold ussdOrder at h ⊢
  dsimp only at h ⊢
  split at h
  · exact (left_out hnone rfl h).elim
  rename_i raw rest hdrop
  have hraw : q.inputs[3]? = some raw := getElem?_of_drop hdrop
  split at h
  · exact (left_out hnone rfl h).elim
  rename_i n hn
  split at h
  · exact (left_out hnone rfl h).elim
  rename_i hrange
  split at h
  · exact (left_out hnone rfl h).elim
  · exact (left_out hnone rfl h).elim
  rename_i name confirm rest
  split at h
  · exact (left_out hnone rfl h).elim
  rename_i hconfirm
  split at h
  · exact (left_out hnone rfl h).elim
  rename_i hprovider
  have hres := reserve_created hnone h
  rw [hres] at h
  obtain ⟨hevent, hticket, hlog⟩ := charged_exec q.refused h
  refine ⟨raw, n, hraw, hn, by omega, hevent, hticket, ?_⟩
  rw [if_neg hrange, if_neg hconfirm, if_neg hprovider, hres]
  exact hlog

/-- A purchase is for the event and the ticket the inputs select, and what is
charged is their total. -/
theorem ussdTicket_created (hnone : db.row (.purchase q.reference) = none)
    (h : ((ussdTicket E q fun _ => .halt).exec db [] []).db.row (.purchase q.reference) = some row) :
    ∃ e t raw n, chosenEvent E q.inputs db = some e ∧ chosenTicket E q.inputs db = some t ∧ q.inputs[3]? = some raw ∧
      E.parseInt raw = some n ∧ 1 ≤ n ∧ row.event = e.1 ∧ row.ticket = t.1 ∧
      ((ussdTicket E q fun _ => .halt).exec db [] []).log = [.charging q.reference (t.2.price * n.toNat)] := by
  unfold ussdTicket at h ⊢
  rw [Prog.exec_read] at h ⊢
  dsimp only [Db.apply_nil] at h ⊢
  split at h
  · exact (left_out hnone rfl h).elim
  rename_i raw₁ rest hdrop₁
  have hraw₁ := getElem?_of_drop hdrop₁
  split at h
  · exact (left_out hnone rfl h).elim
  rename_i e he
  rw [Prog.exec_read] at h ⊢
  dsimp only [Db.apply_nil] at h ⊢
  split at h
  · exact (left_out hnone rfl h).elim
  rename_i raw₂ rest₂
  have hraw₂ : q.inputs[2]? = some raw₂ := by
    have hdrop₂ : q.inputs.drop 2 = raw₂ :: rest₂ := by
      rw [← List.tail_drop, hdrop₁]
      rfl
    exact getElem?_of_drop hdrop₂
  split at h
  · exact (left_out hnone rfl h).elim
  rename_i t ht
  have hevent : chosenEvent E q.inputs db = some e := by
    unfold chosenEvent
    rw [hraw₁]
    exact he
  have hticket : chosenTicket E q.inputs db = some t := by
    unfold chosenTicket
    rw [hevent, Option.bind_some, hraw₂]
    exact ht
  obtain ⟨raw, n, hraw, hn, hpos, hrow, hrow', hlog⟩ := ussdOrder_created hnone h
  exact ⟨e, t, raw, n, hevent, hticket, hraw, hn, hpos, hrow, hrow', hlog⟩

end Purchase

/-! ### What was shown -/

section Shown

variable {s : Session} {row : PurchaseRow}

/-- The index takes what the list has. -/
theorem mem_of_taken {α : Type} {l : List α} {raw : String} {a : α} (h : taken E l raw = some a) : a ∈ l := by
  obtain ⟨n, -, hn⟩ := Option.bind_eq_some_iff.mp h
  unfold pyIndex at hn
  split at hn
  · exact List.mem_of_getElem? hn
  · split at hn
    · exact List.mem_of_getElem? hn
    · cases hn

/-- An event on offer is one of the tables, and has tickets. -/
theorem mem_ussdEvents {db : Database} {e : ℕ × EventRow} (h : e ∈ ussdEvents db) :
    db.row (.event e.1) = some e.2 ∧ ticketsOf db e.1 ≠ [] := by
  obtain ⟨key, r, hr, hsome⟩ := (Db.mem_collect _ _ _).mp ((List.mem_insertionSort _).mp h)
  cases key with
  | event pk =>
    dsimp only at hsome
    split at hsome
    · rename_i hoffer
      cases hsome
      exact ⟨hr, hoffer.2.2⟩
    · cases hsome
  | _ => cases hsome

theorem row_of_chosen {inputs : List String} {db : Database} {e : ℕ × EventRow} (h : chosenEvent E inputs db = some e) :
    db.row (.event e.1) = some e.2 := by
  obtain ⟨raw, -, ht⟩ := Option.bind_eq_some_iff.mp h
  exact (mem_ussdEvents (mem_of_taken ht)).1

theorem price_of_chosen {inputs : List String} {db : Database} {e : ℕ × EventRow} {t : ℕ × TicketRow}
    (he : chosenEvent E inputs db = some e) (ht : chosenTicket E inputs db = some t) :
    price E inputs db = some (e.2.currency, t.2.price) := by
  unfold price
  rw [he, Option.bind_some, ht, Option.map_some]

/-- A number that is shown is positive. -/
theorem pos_of_displayed {α : Type} {l : List α} {raw : String} {a : α} (h : displayed E l raw = some a) {n : ℤ}
    (hn : E.parseInt raw = some n) : 1 ≤ n := by
  unfold displayed at h
  rw [hn] at h
  exact entry_pos h

theorem Session.Displayed.unmoved (h : s.Displayed E row) (hc : s.Created E row) : s.Unmoved E := by
  obtain ⟨e, t, raw, n, he, ht, hraw, hn, hpos, hevent, hticket, hlog⟩ := ussdTicket_created hc.1 hc.2
  obtain ⟨db₁, raw₁, e₁, hdb₁, hraw₁, hd₁⟩ := h.event
  obtain ⟨db₂, e₂, raw₂, t₂, hdb₂, he₂, hraw₂, hd₂⟩ := h.ticket
  obtain ⟨er, amount, her, hcharged, htotal⟩ := h.total
  refine ⟨?_, ⟨db₁, hdb₁, ?_⟩, ⟨db₂, hdb₂, ?_⟩, fun i hi => ?_⟩
  · rintro i (rfl | rfl) raw' hraw' n' hn'
    · obtain rfl := Option.some.inj (hraw₁.symm.trans hraw')
      exact pos_of_displayed hd₁ hn'
    · obtain rfl := Option.some.inj (hraw₂.symm.trans hraw')
      exact pos_of_displayed hd₂ hn'
  · have hchosen : chosenEvent E s.request.inputs db₁ = some (row.event, e₁) := by
      unfold chosenEvent
      rw [hraw₁]
      exact taken_of_displayed hd₁
    rw [hchosen, he, Option.map_some, Option.map_some, hevent]
  · have hchosen : chosenTicket E s.request.inputs db₂ = some (row.ticket, t₂) := by
      unfold chosenTicket
      rw [he₂, Option.bind_some, hraw₂]
      exact taken_of_displayed hd₂
    rw [hchosen, ht, Option.map_some, Option.map_some, hticket]
  · obtain ⟨db, hdb, hshown⟩ := htotal i hi
    refine ⟨db, hdb, ?_⟩
    obtain ⟨c, hc', hc⟩ := Option.bind_eq_some_iff.mp hshown
    rw [hraw, Option.bind_some, hn, Option.map_some] at hc
    -- what was shown is what is charged, and at least one is bought
    have hcur : c.1 = er.currency := congrArg Prod.fst (Option.some.inj hc)
    have hamount : c.2 * n.toNat = amount := congrArg Prod.snd (Option.some.inj hc)
    have hnote : [Note.charging s.request.reference (t.2.price * n.toNat)] = [.charging s.request.reference amount] :=
      hlog.symm.trans hcharged
    have hprice : t.2.price * n.toNat = c.2 * n.toNat := by
      injection hnote with hnote
      injection hnote with _ hnote
      rw [hnote, hamount]
    have hsame : t.2.price = c.2 := Nat.eq_of_mul_eq_mul_right (by omega) hprice
    have her' : er = e.2 := by
      have hrow := row_of_chosen he
      rw [← hevent] at hrow
      exact Option.some.inj (her.symm.trans hrow)
    rw [hc', price_of_chosen he ht, hsame, ← her', ← hcur]

theorem Session.Unmoved.displayed (h : s.Unmoved E) (hc : s.Created E row) : s.Displayed E row := by
  obtain ⟨e, t, raw, n, he, ht, hraw, hn, hpos, hevent, hticket, hlog⟩ := ussdTicket_created hc.1 hc.2
  obtain ⟨db₁, hdb₁, hsame₁⟩ := h.event
  obtain ⟨db₂, hdb₂, hsame₂⟩ := h.ticket
  rw [he, Option.map_some, Option.map_eq_some_iff] at hsame₁
  rw [ht, Option.map_some, Option.map_eq_some_iff] at hsame₂
  obtain ⟨⟨pk₁, e₁⟩, he₁, hpk₁⟩ := hsame₁
  obtain ⟨⟨pk₂, t₂⟩, ht₂, hpk₂⟩ := hsame₂
  obtain ⟨raw₁, hraw₁, htaken₁⟩ := Option.bind_eq_some_iff.mp he₁
  obtain ⟨e₂, he₂, hrest₂⟩ := Option.bind_eq_some_iff.mp ht₂
  obtain ⟨raw₂, hraw₂, htaken₂⟩ := Option.bind_eq_some_iff.mp hrest₂
  have hrow : s.db.row (.event row.event) = some e.2 := by
    rw [hevent]
    exact row_of_chosen he
  refine ⟨⟨db₁, raw₁, e₁, hdb₁, hraw₁, ?_⟩, ⟨db₂, e₂, raw₂, t₂, hdb₂, he₂, hraw₂, ?_⟩,
    ⟨e.2, t.2.price * n.toNat, hrow, hlog, fun i hi => ?_⟩⟩
  · rw [hevent, ← hpk₁]
    exact displayed_of_taken (h.numbers 1 (Or.inl rfl) raw₁ hraw₁) htaken₁
  · rw [hticket, ← hpk₂]
    exact displayed_of_taken (h.numbers 2 (Or.inr rfl) raw₂ hraw₂) htaken₂
  · obtain ⟨db, hdb, hprice⟩ := h.price i hi
    refine ⟨db, hdb, ?_⟩
    unfold total
    rw [hprice, price_of_chosen he ht, Option.bind_some, hraw, Option.bind_some, hn, Option.map_some]

end Shown

/-! ### Screens -/

section Screens

variable {q : UssdRequest} {db : Database}

/-- What comes after an answer, and tells the screen of one text from the others. -/
def telling (text : String) : Except Failure Reply → Program
  | .ok (.screen t) => if t = text then .halt else .note (.charging "" 0) .halt
  | _ => .halt

/-- A request has one answer. -/
theorem Replies.unique {text text' : String} (h : Replies E q db text) (h' : Replies E q db text') : text = text' := by
  by_contra hne
  have hsame := (h (telling text) []).symm.trans (h' (telling text) [])
  have hfirst : (telling text (.ok (.screen text))).exec db [] [] = ⟨db, []⟩ := by
    show (if text = text then _ else _ : Program).exec db [] [] = _
    rw [if_pos rfl]
    rfl
  have hsecond : (telling text (.ok (.screen text'))).exec db [] [] = ⟨db, [.charging "" 0]⟩ := by
    show (if text' = text then _ else _ : Program).exec db [] [] = _
    rw [if_neg (Ne.symm hne)]
    rfl
  rw [hfirst, hsecond] at hsame
  cases congrArg Outcome.log hsame

/-- The first screen: the events on offer. -/
theorem replies_events {first : String} (hq : q.inputs = [first]) (hne : ussdEvents db ≠ []) :
    Replies E q db ("CON Select Event:\n" ++ menu ((ussdEvents db).map (·.2.title))) := fun k log => by
  unfold ussdTicket
  rw [Prog.exec_read, Db.apply_nil, hq]
  simp only [List.drop_succ_cons, List.drop_zero]
  rw [if_neg hne]

/-- The second screen, of an event that is selected: its tickets. -/
theorem replies_tickets {first raw : String} {e : ℕ × EventRow} (hq : q.inputs = [first, raw])
    (he : taken E (ussdEvents db) raw = some e) :
    Replies E q db (if ticketsOf db e.1 = [] then "END No tickets available for this event."
      else "CON Select Ticket for " ++ e.2.title ++ ":\n" ++
        menu ((ticketsOf db e.1).map fun t => t.2.name ++ " - " ++ e.2.currency ++ " " ++ money t.2.price)) :=
  fun k log => by
    unfold taken at he
    unfold ussdTicket
    rw [Prog.exec_read, hq]
    simp only [List.drop_succ_cons, List.drop_zero, Db.apply_nil, he, Prog.exec_read]
    rfl

/-- An event that the list does not have is rejected. -/
theorem replies_no_event {first raw : String} {rest : List String} (hq : q.inputs = first :: raw :: rest)
    (he : taken E (ussdEvents db) raw = none) : Replies E q db "END Invalid event selected." := fun k log => by
  unfold taken at he
  unfold ussdTicket
  rw [Prog.exec_read, hq]
  simp only [List.drop_succ_cons, List.drop_zero, Db.apply_nil, he]

/-- A ticket that the list does not have is rejected. -/
theorem replies_no_ticket {first raw raw' : String} {rest : List String} {e : ℕ × EventRow}
    (hq : q.inputs = first :: raw :: raw' :: rest) (he : taken E (ussdEvents db) raw = some e)
    (ht : taken E (ticketsOf db e.1) raw' = none) : Replies E q db "END Invalid ticket selected." := fun k log => by
  unfold taken at he ht
  unfold ussdTicket
  rw [Prog.exec_read, hq]
  simp only [List.drop_succ_cons, List.drop_zero, Db.apply_nil, he, Prog.exec_read, ht]

/-- Where both are selected the screens of the order follow. -/
theorem ussdTicket_order {first raw raw' : String} {rest : List String} {e : ℕ × EventRow} {t : ℕ × TicketRow}
    {k : Except Failure Reply → Program} {log : List Note}
    (hq : q.inputs = first :: raw :: raw' :: rest) (he : taken E (ussdEvents db) raw = some e)
    (ht : taken E (ticketsOf db e.1) raw' = some t) :
    (ussdTicket E q k).exec db [] log = (ussdOrder E q e t k).exec db [] log := by
  unfold taken at he ht
  unfold ussdTicket
  rw [Prog.exec_read, hq]
  simp only [List.drop_succ_cons, List.drop_zero, Db.apply_nil, he, Prog.exec_read, ht]

/-- The third screen: the ticket. -/
theorem replies_ticket {first raw raw' : String} {e : ℕ × EventRow} {t : ℕ × TicketRow}
    (hq : q.inputs = [first, raw, raw']) (he : taken E (ussdEvents db) raw = some e)
    (ht : taken E (ticketsOf db e.1) raw' = some t) :
    Replies E q db ("CON You selected " ++ t.2.name ++ " (" ++ e.2.currency ++ " " ++ money t.2.price ++
      ").\nEnter Quantity:") := fun k log => by
  rw [ussdTicket_order hq he ht]
  unfold ussdOrder
  rw [hq]
  rfl

/-- The screens of a valid quantity show the total. -/
theorem replies_total {first raw raw' raw'' currency : String} {more : List String} {amount : ℕ} {n : ℤ}
    (hq : q.inputs = first :: raw :: raw' :: raw'' :: more) (hmore : more.length ≤ 1) (hn : E.parseInt raw'' = some n)
    (hrange : 1 ≤ n ∧ n ≤ 20) (htotal : total E q.inputs db = some (currency, amount)) :
    ∃ rest, Replies E q db ((if more = [] then "CON Total: " else "CON Pay ") ++ currency ++ " " ++ money amount ++
      " for " ++ rest) := by
  obtain ⟨c, hc, hamount⟩ := Option.bind_eq_some_iff.mp htotal
  obtain ⟨e, he, hc⟩ := Option.bind_eq_some_iff.mp hc
  obtain ⟨t, ht, rfl⟩ := Option.map_eq_some_iff.mp hc
  have htaken : taken E (ussdEvents db) raw = some e := by simpa [chosenEvent, hq] using he
  have htaken' : taken E (ticketsOf db e.1) raw' = some t := by
    unfold chosenTicket at ht
    rw [he, Option.bind_some, hq] at ht
    simpa using ht
  rw [hq] at hamount
  have hprice : (e.2.currency, t.2.price * n.toNat) = (currency, amount) := by simpa [hn] using hamount
  injection hprice with hcur hprice
  have hnot : ¬ (n < 1 ∨ 20 < n) := by omega
  match more, hmore with
  | [], _ =>
    refine ⟨toString n.toNat ++ " " ++ t.2.name ++ ".\nEnter your full name:", fun k log => ?_⟩
    rw [ussdTicket_order hq htaken htaken']
    unfold ussdOrder
    simp only [hq, List.drop_succ_cons, List.drop_zero, hn, if_neg hnot, hcur, hprice, if_true, String.append_assoc]
  | [name], _ =>
    refine ⟨toString n.toNat ++ " " ++ t.2.name ++ " for " ++ truncate 150 (E.strip name) ++ "?\n1. Confirm\n2. Cancel",
      fun k log => ?_⟩
    rw [ussdTicket_order hq htaken htaken']
    unfold ussdOrder
    simp only [hq, List.drop_succ_cons, List.drop_zero, hn, if_neg hnot, hcur, hprice, if_neg (List.cons_ne_nil _ _),
      String.append_assoc]

end Screens

/-! ### Rejections -/

section Rejections

variable {s : Session} {q : UssdRequest} {db : Database}

/-- A screen that goes on is no rejection. -/
theorem not_rejected {text : String} (h : Replies E q db ("CON " ++ text)) : ¬ Rejected E q db := by
  have hhead : ∀ text' : String, "CON " ++ text ≠ "END " ++ text' := fun text' heq => by
    have hlist := congrArg (fun t : String => t.toList.head?) heq
    simp at hlist
  rintro (h' | h')
  · exact hhead "Invalid event selected." (h.unique h')
  · exact hhead "Invalid ticket selected." (h.unique h')

theorem take_two {l : List String} {raw : String} (h : l[1]? = some raw) : ∃ first, l.take 2 = [first, raw] := by
  match l, h with
  | first :: raw' :: _, h =>
    obtain rfl : raw' = raw := by simpa using h
    exact ⟨first, rfl⟩

theorem take_three {l : List String} {raw raw' : String} (h : l[1]? = some raw) (h' : l[2]? = some raw') :
    ∃ first, l.take 3 = [first, raw, raw'] := by
  match l, h, h' with
  | first :: a :: b :: _, h, h' =>
    obtain rfl : a = raw := by simpa using h
    obtain rfl : b = raw' := by simpa using h'
    exact ⟨first, rfl⟩

/-- A number is not shown. -/
theorem displayed_eq_none {α : Type} {l : List α} {raw : String} {n : ℤ} (hn : E.parseInt raw = some n) :
    displayed E l raw = none ↔ n < 1 ∨ (l.length : ℤ) < n := by
  unfold displayed
  rw [hn]
  exact entry_eq_none_iff

/-- The index takes nothing. -/
theorem taken_eq_none {α : Type} {l : List α} {raw : String} {n : ℤ} (hn : E.parseInt raw = some n) :
    taken E l raw = none ↔ n < 1 - (l.length : ℤ) ∨ (l.length : ℤ) < n := by
  unfold taken
  rw [hn]
  exact pyIndex_eq_none_iff

theorem Session.Rejects.within (h : s.Rejects E) : s.Within E where
  event := fun db db' raw n hdb hdb' hraw hn hout => by
    obtain ⟨first, htake⟩ := take_two hraw
    have hrejected := h.event db db' raw hdb hdb' hraw ((displayed_eq_none hn).mpr hout)
    rw [← taken_eq_none hn]
    by_contra hne
    obtain ⟨e, he⟩ := Option.ne_none_iff_exists'.mp hne
    have hreply := replies_tickets (q := s.step 2) htake he
    rw [if_neg (mem_ussdEvents (mem_of_taken he)).2, show "CON Select Ticket for " = "CON " ++ "Select Ticket for " from rfl,
      String.append_assoc, String.append_assoc, String.append_assoc] at hreply
    exact not_rejected hreply hrejected
  ticket := fun db db' e e' raw n hdb hdb' he he' hraw hn hout => by
    obtain ⟨raw', hraw', htaken⟩ := Option.bind_eq_some_iff.mp he'
    obtain ⟨first, htake⟩ := take_three hraw' hraw
    have hrejected := h.ticket db db' e raw hdb hdb' he hraw ((displayed_eq_none hn).mpr hout)
    rw [← taken_eq_none hn]
    by_contra hne
    obtain ⟨t, ht⟩ := Option.ne_none_iff_exists'.mp hne
    have hreply := replies_ticket (q := s.step 3) htake htaken ht
    rw [show "CON You selected " = "CON " ++ "You selected " from rfl, String.append_assoc, String.append_assoc,
      String.append_assoc, String.append_assoc, String.append_assoc, String.append_assoc] at hreply
    exact not_rejected hreply hrejected

theorem Session.Within.rejects (h : s.Within E) : s.Rejects E where
  event := fun db db' raw hdb hdb' hraw hshown => by
    obtain ⟨first, htake⟩ := take_two hraw
    refine Or.inl (replies_no_event (q := s.step 2) htake ?_)
    rcases hn : E.parseInt raw with _ | n
    · unfold taken
      rw [hn]
      rfl
    · exact (taken_eq_none hn).mpr (h.event db db' raw n hdb hdb' hraw hn ((displayed_eq_none hn).mp hshown))
  ticket := fun db db' e raw hdb hdb' he hraw hshown => by
    obtain ⟨raw', hraw', -⟩ := Option.bind_eq_some_iff.mp he
    obtain ⟨first, htake⟩ := take_three hraw' hraw
    rcases htaken : taken E (ussdEvents db') raw' with _ | e'
    · exact Or.inl (replies_no_event (q := s.step 3) htake htaken)
    refine Or.inr (replies_no_ticket (q := s.step 3) htake htaken ?_)
    rcases hn : E.parseInt raw with _ | n
    · unfold taken
      rw [hn]
      rfl
    have he' : chosenEvent E s.request.inputs db' = some e' := by
      unfold chosenEvent
      rw [hraw']
      exact htaken
    exact (taken_eq_none hn).mpr (h.ticket db db' e e' raw n hdb hdb' he he' hraw hn ((displayed_eq_none hn).mp hshown))

end Rejections

/-! ### The menus -/

/-- **What a USSD caller buys is what the menus showed**, and what they did not
show is turned down, where the numbers are positive and lie in menus that keep
what they show. -/
theorem menus_hold (E : Env) (s : Session) :
    (s.Rejects E ↔ s.Within E) ∧ ∀ row, s.Created E row → (s.Displayed E row ↔ s.Unmoved E) :=
  ⟨⟨Session.Rejects.within, Session.Within.rejects⟩, fun _ hc =>
    ⟨fun h => h.unmoved hc, fun h => h.displayed hc⟩⟩

/-- Numbers of one digit, as a caller enters them. -/
def digits : Env := { Env.plain with parseInt := fun text =>
  match text with
  | "0" => some 0
  | "1" => some 1
  | "2" => some 2
  | _ => none }

/-- Two events, with a ticket each. -/
def offers : Database :=
  (((Db.empty.set (.event 1) (some { title := "Gala", startDate := 0, endDate := 10, status := .OPEN })).set (.event 2)
    (some { title := "Finals", startDate := 0, endDate := 10, status := .OPEN })).set (.ticket 3)
    (some { event := 1, name := "Regular", price := 500 })).set (.ticket 4)
    (some { event := 2, name := "Regular", price := 9000 })

/-- A session that orders a ticket of the event entered, while nothing is edited. -/
def ordering (event : String) : Session where
  request := { inputs := ["2", event, "1", "1", "Ama", "1"], phoneNumber := "0241234567", reference := "TK-1", now := 5 }
  db := offers
  shown := fun _ => some offers

/-- What it orders. -/
def ordered : PurchaseRow where
  ticket := 4
  event := 2
  buyerName := "Ama"
  buyerEmail := "0241234567@ussd.vote"
  purchaseMethod := .USSD
  purchasedAt := 5

theorem ordering_created {event : String} (h : event = "0" ∨ event = "2") : (ordering event).Created digits ordered := by
  rcases h with rfl | rfl
  · exact ⟨rfl, by decide +kernel⟩
  · exact ⟨rfl, by decide +kernel⟩

theorem menus_hold_second : ((ordering "2").Rejects digits ↔ (ordering "2").Within digits) ∧
    ((ordering "2").Displayed digits ordered ↔ (ordering "2").Unmoved digits) :=
  ⟨(menus_hold digits (ordering "2")).1,
    (menus_hold digits (ordering "2")).2 ordered (ordering_created (Or.inr rfl))⟩

/-- The number nought is under no entry, and buys a ticket of the last event. -/
theorem not_menus_hold : ¬ ∀ (E : Env) (s : Session),
    s.Rejects E ∧ ∀ row, s.Created E row → s.Displayed E row := by
  intro h
  obtain ⟨db, raw, e, hdb, hraw, hd⟩ :=
    ((h digits (ordering "0")).2 ordered (ordering_created (Or.inl rfl))).event
  obtain rfl : "0" = raw := Option.some.inj hraw
  obtain rfl : offers = db := Option.some.inj hdb
  have hnone : displayed digits (ussdEvents offers) "0" = none := rfl
  rw [hnone] at hd
  cases hd

end Menus
end FlexyVotes
