/-
# The keys of purchases

A call of `initiate_vote_payment` with an idempotency key that is taken is given
the payment that took it. The key is looked up before the quote, where the
payment's event and candidate are compared (`lookup`), and again when the key
turns out to be taken as the payment is recorded, where nothing is (`takenKey`).

A payment is created by the call that drew its reference, and every key in the
tables was put there by such a call (`Keyed`). What calls beside each other
return is therefore what they ordered as long as those two statements find only
payments of a like call, apart from what the first of them compares (`Alike`,
`returned_alike`). Without that the key of one purchase returns another
(`not_returned_alike`).

Key definitions: `SamePurchase`, `lookup`, `takenKey`, `Keyed`, `Alike`.
Key theorems: `call_tells`, `returned_alike`.
-/
import FlexyVotes.Lib.Telling
import FlexyVotes.Payments.Transitions

namespace FlexyVotes
namespace Payments
namespace PurchaseKeys

open Transactions Voters Casting Transitions

/-- The same purchase, for the same payer. -/
structure SamePurchase (q q' : InitiateCall) : Prop where
  event : q.event = q'.event
  candidate : q.candidate = q'.candidate
  votes : q.order.votes = q'.order.votes
  package : q.package = q'.package
  discountCode : q.order.discountCode = q'.order.discountCode
  name : q.name = q'.name
  email : q.order.email = q'.order.email
  phone : q.order.phone = q'.order.phone

/-- The caller notes the payment it is given, or the code of the error. -/
def told (t : ℕ) : Except Failure String → Program
  | .ok reference => .note (.returned t reference) .halt
  | .error (.payment _ code) => .note (.declined t code) .halt
  | .error _ => .halt

/-- Thread `t` makes its call. -/
def call (E : Env) (calls : ℕ → InitiateCall) (t : ℕ) : Program := initiateVotePayment E (calls t) (told t)

/-! ### The two looks at the key -/

/-- `initiate_vote_payment` from its look at the key on. -/
def lookup (E : Env) (q : InitiateCall) (ev : EventRow) (choice : Choice) (package : Option (ℕ × VotePackageRow))
    (k : Except Failure String → Program) : Program :=
  .read fun db =>
    match if q.idempotencyKey = "" then none else db.row (.paymentKey q.idempotencyKey) with
    | some reference =>
      match db.row (.payment reference) with
      | none => k (.error (.crash "Payment.DoesNotExist"))
      | some p =>
        if p.event ≠ some q.event ∨ p.candidate ≠ some q.candidate then
          k (.error (.payment "This request was already used for a different purchase." "idempotency_conflict"))
        else k (.ok reference)
    | none =>
      .read fun db =>
        let quoted := quote E db q.event ev choice { q.order with package := package } (q.now 0)
        match quoted.errors with
        | e :: _ => k (.error (.payment e "invalid"))
        | [] =>
          if q.order.email = "" ∧ q.order.phone = "" then
            k (.error (.payment "Enter an email address or phone number for your receipt." "invalid"))
          else if q.challenged then
            k (.error (.payment
              "Additional verification is required. Complete the challenge and try again." "challenge"))
          else recordPayment q (q.row E ev quoted) k

/-- The key was taken as the payment was recorded. -/
def takenKey (q : InitiateCall) (k : Except Failure String → Program) : Program :=
  .read fun db =>
    match db.row (.paymentKey q.idempotencyKey) with
    | some reference => k (.ok reference)
    | none => k (.error (.crash "IntegrityError"))

theorem initiateVotePayment_eq (E : Env) (q : InitiateCall) (k : Except Failure String → Program) :
    initiateVotePayment E q k = .read fun db =>
      match db.row (.event q.event), db.row (.candidate q.candidate) with
      | some ev, some c =>
        if !q.configured then
          k (.error (.payment "Paid voting is not available right now (payment provider not configured)." "unavailable"))
        else lookup E q ev
          { pk := q.candidate, row := c, category := c.category.bind fun g => (db.row (.category g)).map fun r => (g, r) }
          (q.package.bind fun g => ((db.row (.votePackage g)).filter fun r => r.event = q.event).map fun r => (g, r)) k
      | _, _ => k (.error (.crash "Http404")) := rfl

theorem recordPayment_eq (q : InitiateCall) (row : PaymentRow) (k : Except Failure String → Program) :
    recordPayment q row k = .insertOr (.payment q.reference) row (.rollback (takenKey q k))
      (if q.idempotencyKey = "" then askGateway q k
        else .insertOr (.paymentKey q.idempotencyKey) q.reference (.rollback (takenKey q k)) (askGateway q k)) := rfl

section Calls

variable {E : Env} {calls : ℕ → InitiateCall}

/-- The thread is about to look the key up. -/
def AtLookup (E : Env) (calls : ℕ → InitiateCall) (t : ℕ) (p : Program) : Prop :=
  ∃ ev choice package, p = lookup E (calls t) ev choice package (told t)

/-- The thread found the key taken as it recorded its payment. -/
def AtTakenKey (calls : ℕ → InitiateCall) (t : ℕ) (p : Program) : Prop := p = takenKey (calls t) (told t)

/-- Every key was put there by the call that drew the payment's reference. -/
def Keyed (calls : ℕ → InitiateCall) : (k : Key) → Option (Row k) → Prop
  | .paymentKey key => fun r => ∀ reference, r = some reference →
      ∃ u, (calls u).reference = reference ∧ (calls u).idempotencyKey = key
  | _ => fun _ => True

/-- What a statement of `t` returns: its own payment, or what it found under its
key at one of the two looks. -/
def Returns (E : Env) (calls : ℕ → InitiateCall) (t : ℕ) (p : Program) (view : Database) : Note → Prop
  | .returned u reference => u = t ∧ (reference = (calls t).reference ∨
      view.row (.paymentKey (calls t).idempotencyKey) = some reference ∧
        (AtTakenKey calls t p ∨ AtLookup E calls t p ∧ ∃ p', view.row (.payment reference) = some p' ∧
          p'.event = some (calls t).event ∧ p'.candidate = some (calls t).candidate))
  | _ => True

/-- What `t` notes and leaves to do. -/
abbrev Answers (E : Env) (calls : ℕ → InitiateCall) (t : ℕ) (p : Program) : Prop :=
  p.TellsFrom (Keyed calls) (Returns E calls t)

variable {t : ℕ}

theorem told_error {e : Failure} : Answers E calls t (told t (.error e)) := by
  cases e
  case payment message code => exact .note (fun _ _ => trivial) .halt
  all_goals exact .halt

/-- The payment of the call itself is returned. -/
theorem told_own : Answers E calls t (told t (.ok (calls t).reference)) :=
  .note (fun _ _ => ⟨rfl, Or.inl rfl⟩) .halt

theorem told_found {reference : String} {p : Program} {view : Database}
    (h : Returns E calls t p view (.returned t reference)) :
    (∀ n ∈ (told t (.ok reference)).news, Returns E calls t p view n) ∧
      (told t (.ok reference)).Tells (Keyed calls) (Returns E calls t) := by
  refine ⟨fun n hn => ?_, trivial⟩
  obtain rfl := List.mem_singleton.mp hn
  exact h

theorem takenKey_tells : Answers E calls t (takenKey (calls t) (told t)) := by
  refine .start trivial fun db => ?_
  dsimp only
  rcases hkey : db.row (.paymentKey (calls t).idempotencyKey) with _ | reference
  · exact told_error.here
  · exact told_found ⟨rfl, Or.inr ⟨hkey, Or.inl rfl⟩⟩

theorem askGateway_tells : Answers E calls t (askGateway (calls t) (told t)) := by
  unfold askGateway
  split
  · exact .commit (.note (fun _ _ => trivial) (.update (fun _ => trivial) fun _ => .commit told_error))
  · refine .commit (.update (fun _ => trivial) fun _ => .read fun db => ?_)
    split
    · exact .rollback told_error
    · unfold saveTransition
      split
      · exact .put trivial (.commit told_own)
      · exact .commit told_own

theorem recordPayment_tells (row : PaymentRow) : Answers E calls t (recordPayment (calls t) row (told t)) := by
  have htaken : Answers E calls t (.rollback (takenKey (calls t) (told t))) := .rollback takenKey_tells
  rw [recordPayment_eq]
  refine .insertOr trivial htaken ?_
  split
  · exact askGateway_tells
  · refine .insertOr (fun reference href => ?_) htaken askGateway_tells
    exact ⟨t, Option.some.inj href, rfl⟩

/-- The first look returns a payment of the same event and candidate. -/
theorem lookup_tells (ev : EventRow) (choice : Choice) (package : Option (ℕ × VotePackageRow)) :
    Answers E calls t (lookup E (calls t) ev choice package (told t)) := by
  refine .start trivial fun db => ?_
  dsimp only
  split
  · rename_i reference hkey
    rcases hp : db.row (.payment reference) with _ | p
    · exact told_error.here
    · dsimp only
      split
      · exact told_error.here
      · rename_i hsame
        have hkey : db.row (.paymentKey (calls t).idempotencyKey) = some reference := by
          split at hkey
          · cases hkey
          · exact hkey
        push Not at hsame
        exact told_found ⟨rfl, Or.inr ⟨hkey, Or.inr ⟨⟨ev, choice, package, rfl⟩, p, hp, hsame⟩⟩⟩
  · refine Prog.TellsFrom.here (.read fun db => ?_)
    split
    · exact told_error
    · split
      · exact told_error
      · split
        · exact told_error
        · exact recordPayment_tells _

/-- **A call** returns its own payment, or what a look found under its key. -/
theorem call_tells : Answers E calls t (call E calls t) := by
  unfold call
  rw [initiateVotePayment_eq]
  refine .read fun db => ?_
  split
  · split
    · exact told_error
    · exact lookup_tells _ _ _
  · exact told_error

/-! ### What calls return -/

/-- Under the key of `t` is the payment that `u` drew. -/
def Takes (calls : ℕ → InitiateCall) (view : Database) (t u : ℕ) : Prop :=
  (calls u).idempotencyKey = (calls t).idempotencyKey ∧
    view.row (.paymentKey (calls t).idempotencyKey) = some (calls u).reference

/-- A look that does not compare what it finds with the order finds the payment
of a like order. -/
def Alike (E : Env) (calls : ℕ → InitiateCall) (s : State Row Note) (t : ℕ) (_ : State Row Note) : Prop :=
  ∀ u, Takes calls (s.db.apply (s.thr t).pend) t u →
    (AtTakenKey calls t (s.thr t).prog → SamePurchase (calls u) (calls t)) ∧
    (AtLookup E calls t (s.thr t).prog → ∀ p,
      (s.db.apply (s.thr t).pend).row (.payment (calls u).reference) = some p →
      p.event = some (calls t).event → p.candidate = some (calls t).candidate → SamePurchase (calls u) (calls t))

/-- What a call returns was created for what it ordered. -/
def ReturnsOwn (calls : ℕ → InitiateCall) (t : ℕ) : Note → Prop
  | .returned _ reference => ∃ u, (calls u).reference = reference ∧
      (calls u).idempotencyKey = (calls t).idempotencyKey ∧ SamePurchase (calls u) (calls t)
  | _ => True

theorem SamePurchase.refl (q : InitiateCall) : SamePurchase q q := ⟨rfl, rfl, rfl, rfl, rfl, rfl, rfl, rfl⟩

theorem returned_own {s s' : State Row Note} {n : Note}
    (h : Telling (Keyed calls) (Returns E calls) s) (halike : Alike E calls s t s')
    (hn : Returns E calls t (s.thr t).prog (s.db.apply (s.thr t).pend) n) : ReturnsOwn calls t n := by
  cases n
  case returned u reference =>
    obtain ⟨-, rfl | ⟨hkey, hlook⟩⟩ := hn
    · exact ⟨t, rfl, rfl, .refl _⟩
    · obtain ⟨u, rfl, hu⟩ := apply_rows h.rows (h.pend t) (.paymentKey (calls t).idempotencyKey) reference hkey
      refine ⟨u, rfl, hu, ?_⟩
      obtain ⟨htaken, hlookup⟩ := halike u ⟨hu, hkey⟩
      rcases hlook with hat | ⟨hat, p, hp, hev, hcand⟩
      · exact htaken hat
      · exact hlookup hat p hp hev hcand
  all_goals trivial

/-- A look that finds the payment of another order reports the conflict. -/
theorem conflict_reported {s s' : State Row Note} {u : ℕ} {p : PaymentRow} (hkey : (calls t).idempotencyKey ≠ "")
    (hs : fire s t = some s') (halike : Alike E calls s t s')
    (hlook : AtLookup E calls t (s.thr t).prog ∨ AtTakenKey calls t (s.thr t).prog)
    (htakes : Takes calls (s.db.apply (s.thr t).pend) t u)
    (hp : (s.db.apply (s.thr t).pend).row (.payment (calls u).reference) = some p)
    (hdiff : ¬ SamePurchase (calls u) (calls t)) : .declined t "idempotency_conflict" ∈ (s'.thr t).log := by
  obtain ⟨htaken, hlookup⟩ := halike u htakes
  rcases hlook with hat | hat
  · have hne : p.event ≠ some (calls t).event ∨ p.candidate ≠ some (calls t).candidate := by
      by_contra hsame
      push Not at hsame
      exact hdiff (hlookup hat p hp hsame.1 hsame.2)
    obtain ⟨ev, choice, package, hprog⟩ := hat
    unfold fire at hs
    dsimp only at hs
    rw [hprog] at hs
    simp only [lookup, if_neg hkey, htakes.2, hp, if_pos hne, Option.some.injEq] at hs
    subst hs
    rw [State.goto_thr_self]
    exact List.mem_cons_self
  · exact absurd (htaken hat) hdiff

/-- A look that finds an unlike order where it does not compare returns that
order's payment. -/
theorem unlike_returned {s s' : State Row Note} (hkey : (calls t).idempotencyKey ≠ "") (hs : fire s t = some s')
    (h : ¬ Alike E calls s t s') : ∃ u, Takes calls (s.db.apply (s.thr t).pend) t u ∧
      ¬ SamePurchase (calls u) (calls t) ∧ .returned t (calls u).reference ∈ (s'.thr t).log := by
  unfold Alike at h
  push Not at h
  obtain ⟨u, htakes, hunlike⟩ := h
  refine ⟨u, htakes, ?_⟩
  have hgo : ∀ f : Database → Program, (s.thr t).prog = .read f →
      f (s.db.apply (s.thr t).pend) = told t (.ok (calls u).reference) →
      .returned t (calls u).reference ∈ (s'.thr t).log := by
    intro f hprog hf
    unfold fire at hs
    dsimp only at hs
    rw [hprog] at hs
    simp only [hf, Option.some.injEq] at hs
    subst hs
    rw [State.goto_thr_self]
    exact List.mem_cons_self
  by_cases htaken : AtTakenKey calls t (s.thr t).prog → SamePurchase (calls u) (calls t)
  · obtain ⟨⟨ev, choice, package, hprog⟩, p, hp, hev, hcand, hdiff⟩ := hunlike htaken
    exact ⟨hdiff, hgo _ hprog (by simp [hkey, htakes.2, hp, hev, hcand])⟩
  · push Not at htaken
    obtain ⟨hprog, hdiff⟩ := htaken
    exact ⟨hdiff, hgo _ hprog (by simp [htakes.2])⟩

/-- **Calls beside each other**, whose looks find like orders only: what is
returned was created for the same purchase, and a key found with another order
is reported as a conflict. A look that finds an unlike order otherwise returns
it. -/
theorem returned_alike {db₀ : Database} {s : State Row Note} (hkeys : ∀ t, (calls t).idempotencyKey ≠ "")
    (hfresh : ∀ key, db₀.row (.paymentKey key) = none) (h : Run (Alike E calls) (.init db₀ (call E calls)) s) :
    (∀ t reference, .returned t reference ∈ (s.thr t).log → ∃ u, (calls u).reference = reference ∧
      (calls u).idempotencyKey = (calls t).idempotencyKey ∧ SamePurchase (calls u) (calls t)) ∧
    (∀ t u p s', fire s t = some s' → Alike E calls s t s' →
      AtLookup E calls t (s.thr t).prog ∨ AtTakenKey calls t (s.thr t).prog →
      Takes calls (s.db.apply (s.thr t).pend) t u →
      (s.db.apply (s.thr t).pend).row (.payment (calls u).reference) = some p →
      ¬ SamePurchase (calls u) (calls t) → .declined t "idempotency_conflict" ∈ (s'.thr t).log) ∧
    ∀ t s', fire s t = some s' → ¬ Alike E calls s t s' → ∃ u, Takes calls (s.db.apply (s.thr t).pend) t u ∧
      ¬ SamePurchase (calls u) (calls t) ∧ .returned t (calls u).reference ∈ (s'.thr t).log := by
  have hrows : ∀ k, Keyed calls k (db₀.row k) := by
    intro k
    cases k
    case paymentKey key =>
      intro reference href
      rw [hfresh key] at href
      cases href
    all_goals trivial
  have hstart : Telling (Keyed calls) (Returns E calls) (.init db₀ (call E calls)) :=
    .init hrows fun _ => call_tells.2
  have hlog : ∀ t, ∀ n ∈ ((State.init db₀ (call E calls)).thr t).log, ReturnsOwn calls t n :=
    fun _ _ hn => absurd hn List.not_mem_nil
  obtain ⟨-, hown⟩ := hstart.noted hlog (fun _ _ _ htell halike _ hn => returned_own htell halike hn) h
  refine ⟨fun t reference hn => hown t _ hn, fun t u p s' hs halike hlook htakes hp hdiff => ?_, fun t s' hs hunlike => ?_⟩
  · exact conflict_reported (hkeys t) hs halike hlook htakes hp hdiff
  · exact unlike_returned (hkeys t) hs hunlike

end Calls

/-! ### One key for two purchases -/

/-- A purchase of so many votes, under one key. -/
def keyedPurchase (reference : String) (votes : ℤ) : InitiateCall :=
  { purchase reference (.ok ("page", "code")) with
    idempotencyKey := "api:key", order := { votes := .int votes, email := "ama@x" } }

/-- Two votes are ordered, and then one, or two again. -/
def orders (again : ℤ) : ℕ → InitiateCall
  | 0 => keyedPurchase "first" 2
  | _ => keyedPurchase "second" again

/-- The first call to its end, and then the second. -/
def oneThenTwo : List ℕ := List.replicate 11 0 ++ List.replicate 2 1

theorem orders_key (again : ℤ) : ∀ t, (orders again t).idempotencyKey = "api:key"
  | 0 => rfl
  | _ + 1 => rfl

theorem shop_fresh : ∀ key, shop.row (.paymentKey key) = none := fun _ => rfl

/-- One vote is ordered, and the payment of two votes returned. -/
theorem not_returned_alike :
    ¬ ∀ (E : Env) (calls : ℕ → InitiateCall) (db₀ : Database) (s : State Row Note),
      (∀ t, (calls t).idempotencyKey ≠ "") → (∀ key, db₀.row (.paymentKey key) = none) →
      Run Any (.init db₀ (call E calls)) s → ∀ t reference, .returned t reference ∈ (s.thr t).log →
        ∃ u, (calls u).reference = reference ∧ (calls u).idempotencyKey = (calls t).idempotencyKey ∧
          SamePurchase (calls u) (calls t) := by
  intro h
  have hlog : (replay (.init shop (call .plain (orders 1))) oneThenTwo).map (fun s => (s.thr 1).log) =
      some [.returned 1 "first"] := by decide +kernel
  obtain ⟨s, hs, hlog⟩ := Option.map_eq_some_iff.mp hlog
  obtain ⟨u, href, -, hsame⟩ := h .plain (orders 1) shop s (fun t => by rw [orders_key]; decide) shop_fresh
    (Run.of_replay _ .refl hs) 1 "first" (by rw [hlog]; exact List.mem_cons_self)
  rcases u with _ | u
  · simpa [orders, keyedPurchase] using hsame.votes
  · simp [orders, keyedPurchase, purchase] at href

/-- The second call orders the same, and is given the first payment. -/
theorem returned_alike_again :
    ∃ s, replay (.init shop (call .plain (orders 2))) oneThenTwo = some s ∧ (s.thr 1).log = [.returned 1 "first"] ∧
      ∃ u, (orders 2 u).reference = "first" ∧ SamePurchase (orders 2 u) (orders 2 1) := by
  have hlog : (replay (.init shop (call .plain (orders 2))) oneThenTwo).map (fun s => (s.thr 1).log) =
      some [.returned 1 "first"] := by decide +kernel
  have hsame : ∀ t u, SamePurchase (orders 2 u) (orders 2 t) := by
    intro t u
    rcases t with _ | t <;> rcases u with _ | u <;> exact ⟨rfl, rfl, rfl, rfl, rfl, rfl, rfl, rfl⟩
  obtain ⟨s, hs, hlog⟩ := Option.map_eq_some_iff.mp hlog
  have hrun : Run (Alike .plain (orders 2)) (.init shop (call .plain (orders 2))) s :=
    (Run.of_replay _ .refl hs).mono fun _ t _ _ u _ => ⟨fun _ => hsame t u, fun _ _ _ _ _ => hsame t u⟩
  obtain ⟨u, href, -, hu⟩ := (returned_alike (fun t => by rw [orders_key]; decide) shop_fresh hrun).1 1 "first"
    (by rw [hlog]; exact List.mem_cons_self)
  exact ⟨s, hs, hlog, u, href, hu⟩

end PurchaseKeys
end Payments
end FlexyVotes
