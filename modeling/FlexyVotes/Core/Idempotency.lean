/-
# Idempotency keys

A request with a key claims its record, runs its operation, and stores the
response in the record, or deletes it where the operation failed. A request that
finds the record of another gets the stored response, or is told that its payload
differs or that the other is not finished; a record that has expired it claims
for itself.

The requests of one scope and key are interleaved at their accesses to the
record. Two orders go wrong: a record deleted between the insert that it made
fail and the read that looks at it, and a record that expired while its request
was still running. Where neither happens every access is `Proper`.

Key definitions: `begin₂`, `Step`, `Proper`, `Orderly`.
Key theorems: `Claimed.step`, `requests_proper`.
-/
import FlexyVotes.Core.Json
import FlexyVotes.Lib.Steps
import FlexyVotes.Models

namespace FlexyVotes
namespace Idempotency

/-- `request_fingerprint`. -/
def requestFingerprint (E : Env) (payload : Json) : String := E.sha256 payload.canonicalJson

/-- `DEFAULT_TTL`, in microseconds. -/
def DEFAULT_TTL : ℕ := 24 * 3600 * 1000000

/-- The `IdempotencyRecord` of a scope and key, with what is only told about it. -/
structure Record where
  pk : ℕ
  row : IdempotencyRow
  /-- The number of the claim it was last claimed with. -/
  claim : ℕ
  /-- The fingerprint of the execution that stored the response. -/
  storedBy : Option String := none

/-- Where a request is between two accesses. -/
inductive Flight
  /-- `begin`, before the insert: the fingerprint and `now`. -/
  | began (fingerprint : String) (now : Time)
  /-- The insert raised `IntegrityError`. -/
  | refused (fingerprint : String) (now : Time)
  /-- The operation runs; the pk of the record, and the number of the claim. -/
  | working (pk : ℕ) (fingerprint : String) (claim : ℕ)

structure State where
  clock : Time := 0
  record : Option Record := none
  /-- The primary keys and the claims given out. -/
  pks : ℕ := 0
  claims : ℕ := 0
  flights : ℕ → Option Flight := fun _ => none

def State.setFlight (s : State) (i : ℕ) (flight : Option Flight) : State :=
  { s with flights := fun x => if x = i then flight else s.flights x }

/-- What `begin` returns or raises. -/
inductive Begun
  | claimed (r : Record)
  | replay (r : Record)
  | conflict
  | inProgress
  /-- `IdempotencyRecord.DoesNotExist`. -/
  | doesNotExist

/-- The insert of `begin`. -/
def inserted (fingerprint : String) (now : Time) (ttl : ℕ) (s : State) : Record :=
  { pk := s.pks, row := { requestHash := fingerprint, expiresAt := now + ttl }, claim := s.claims }

/-- A record that expired, claimed again. -/
def takenOver (fingerprint : String) (now : Time) (ttl claim : ℕ) (r : Record) : Record :=
  { r with row := { requestHash := fingerprint, expiresAt := now + ttl }, claim := claim, storedBy := none }

/-- `begin` after an insert that failed, on the record that is there. -/
def begin₂ (fingerprint : String) (now : Time) (ttl claim : ℕ) : Option Record → Begun
  | none => .doesNotExist
  | some r =>
    if r.row.expiresAt ≤ now then .claimed (takenOver fingerprint now ttl claim r)
    else if r.row.requestHash ≠ fingerprint then .conflict
    else if r.row.state ≠ .COMPLETED then .inProgress
    else .replay r

/-- How an operation ends. -/
inductive Outcome
  /-- It raises. -/
  | raised
  /-- It returns an `HttpResponse` of its own. -/
  | response
  | result (status : ℕ) (body : Json)

/-- `complete`: the update finds the record by its pk. -/
def complete (pk status : ℕ) (body : Json) (fingerprint : String) (r : Record) : Record :=
  if r.pk = pk then
    { r with
      row := { r.row with state := .COMPLETED, responseStatus := some status, responseBody := some body }
      storedBy := some fingerprint }
  else r

/-- `abandon`: the delete finds the record by its pk, if it is in progress. -/
def abandon (pk : ℕ) (record : Option Record) : Option Record :=
  record.filter fun r => ¬ (r.pk = pk ∧ r.row.state = .IN_PROGRESS)

/-- The update or the delete finds the record. -/
def Outcome.Finds (pk : ℕ) (r : Record) : Outcome → Prop
  | .result _ _ => r.pk = pk
  | _ => r.pk = pk ∧ r.row.state = .IN_PROGRESS

/-- One access of a request `i` with the scope and key. -/
inductive Step
  /-- A request comes. -/
  | arrive (i : ℕ) (payload : Json)
  /-- `begin`, its first transaction. -/
  | create (i : ℕ)
  /-- `begin`, its second transaction. -/
  | get (i : ℕ)
  /-- The operation has ended: `complete` or `abandon`. -/
  | finish (i : ℕ) (outcome : Outcome)
  /-- The request dies. -/
  | stop (i : ℕ)

variable (E : Env) (ttl : ℕ)

def step : Step → State → State
  | .arrive i payload, s =>
    if (s.flights i).isSome then s else s.setFlight i (some (.began (requestFingerprint E payload) s.clock))
  | .create i, s =>
    match s.flights i with
    | some (.began fingerprint now) =>
      match s.record with
      | some _ => s.setFlight i (some (.refused fingerprint now))
      | none =>
        { s.setFlight i (some (.working s.pks fingerprint s.claims)) with
          record := some (inserted fingerprint now ttl s), pks := s.pks + 1, claims := s.claims + 1 }
    | _ => s
  | .get i, s =>
    match s.flights i with
    | some (.refused fingerprint now) =>
      match begin₂ fingerprint now ttl s.claims s.record with
      | .claimed r =>
        { s.setFlight i (some (.working r.pk fingerprint s.claims)) with record := some r, claims := s.claims + 1 }
      | _ => s.setFlight i none
    | _ => s
  | .finish i outcome, s =>
    match s.flights i with
    | some (.working pk fingerprint _) =>
      match outcome with
      | .result status body => { s.setFlight i none with record := s.record.map (complete pk status body fingerprint) }
      | _ => { s.setFlight i none with record := abandon pk s.record }
    | _ => s
  | .stop i, s => s.setFlight i none

/-- A step at its moment. -/
def tick (x : Time × Step) (s : State) : State := step E ttl x.2 { s with clock := x.1 }

/-- The moments of the steps follow one another, and a step meets `C` in the
state it is taken in. -/
def Timely (C : Step → State → Prop) (x : Time × Step) (s : State) : Prop :=
  s.clock ≤ x.1 ∧ C x.2 { s with clock := x.1 }

/-- The claim is held by a request that is still running. -/
def State.Live (s : State) (claim : ℕ) : Prop := ∃ i pk fingerprint, s.flights i = some (.working pk fingerprint claim)

/-- What an access has to do. -/
def Proper : Step → State → Prop
  -- `begin` raises nothing else, and what it replays was stored under the fingerprint
  | .get i, s => ∀ fingerprint now, s.flights i = some (.refused fingerprint now) →
    begin₂ fingerprint now ttl s.claims s.record ≠ .doesNotExist ∧
      ∀ r, begin₂ fingerprint now ttl s.claims s.record = .replay r → r.storedBy = some fingerprint
  -- what is completed or deleted is no claim that another request holds
  | .finish i outcome, s => ∀ pk fingerprint claim r, s.flights i = some (.working pk fingerprint claim) →
    s.record = some r → outcome.Finds pk r → r.claim ≠ claim → ¬ s.Live r.claim
  | _, _ => True

/-- A record is there when it is looked at after a failed insert; and where it
has expired, the request that claimed it is not running any more. -/
def Orderly : Step → State → Prop
  | .get i, s => ∀ fingerprint now, s.flights i = some (.refused fingerprint now) →
    ∃ r, s.record = some r ∧ (r.row.expiresAt ≤ now → ¬ s.Live r.claim)
  | _, _ => True

variable {E : Env} {ttl : ℕ}

/-! ### One claim at a time -/

/-- A request that runs its operation has the record, in progress and under its
fingerprint, and no other does; a response was stored under the fingerprint of the
record. -/
structure Claimed (s : State) : Prop where
  own : ∀ i pk fingerprint claim, s.flights i = some (.working pk fingerprint claim) → ∃ r, s.record = some r ∧
    r.pk = pk ∧ r.claim = claim ∧ r.row.requestHash = fingerprint ∧ r.row.state = .IN_PROGRESS
  one : ∀ i j pk fingerprint claim pk' fingerprint' claim', s.flights i = some (.working pk fingerprint claim) →
    s.flights j = some (.working pk' fingerprint' claim') → i = j
  stored : ∀ r, s.record = some r → r.row.state = .COMPLETED → r.storedBy = some r.row.requestHash

theorem flights_setFlight {s : State} {i j : ℕ} {o : Option Flight} {f : Flight}
    (h : (s.setFlight i o).flights j = some f) : (j = i ∧ o = some f) ∨ (j ≠ i ∧ s.flights j = some f) := by
  unfold State.setFlight at h
  dsimp only at h
  split at h
  · rename_i hj
    exact Or.inl ⟨hj, h⟩
  · rename_i hj
    exact Or.inr ⟨hj, h⟩

/-- A request goes on without the record, or ends. -/
theorem Claimed.setFlight {s : State} {i : ℕ} {o : Option Flight} (h : Claimed s)
    (ho : ∀ pk fingerprint claim, o ≠ some (.working pk fingerprint claim)) : Claimed (s.setFlight i o) where
  own j pk fingerprint claim hj := by
    rcases flights_setFlight hj with ⟨-, ho'⟩ | ⟨-, hj⟩
    · exact absurd ho' (ho _ _ _)
    · exact h.own j pk fingerprint claim hj
  one j k _ _ _ _ _ _ hj hk := by
    rcases flights_setFlight hj with ⟨-, ho'⟩ | ⟨-, hj⟩
    · exact absurd ho' (ho _ _ _)
    · rcases flights_setFlight hk with ⟨-, ho'⟩ | ⟨-, hk⟩
      · exact absurd ho' (ho _ _ _)
      · exact h.one j k _ _ _ _ _ _ hj hk
  stored := h.stored

/-- Nobody has the record. -/
def State.Idle (s : State) : Prop := ∀ i pk fingerprint claim, s.flights i ≠ some (.working pk fingerprint claim)

/-- A record that nobody has is claimed. -/
theorem State.Idle.claim {s t : State} {i : ℕ} {r : Record} (hs : s.Idle)
    (hf : t.flights = (s.setFlight i (some (.working r.pk r.row.requestHash r.claim))).flights)
    (hr : t.record = some r) (hstate : r.row.state = .IN_PROGRESS) : Claimed t where
  own j pk fingerprint claim hj := by
    rw [hf] at hj
    rcases flights_setFlight hj with ⟨-, ho⟩ | ⟨-, hj⟩
    · cases ho
      exact ⟨r, hr, rfl, rfl, rfl, hstate⟩
    · exact absurd hj (hs j _ _ _)
  one j k _ _ _ _ _ _ hj hk := by
    rw [hf] at hj hk
    rcases flights_setFlight hj with ⟨rfl, -⟩ | ⟨-, hj⟩
    · rcases flights_setFlight hk with ⟨hk, -⟩ | ⟨-, hk⟩
      · exact hk.symm
      · exact absurd hk (hs k _ _ _)
    · exact absurd hj (hs j _ _ _)
  stored r' hr' hc := by
    rw [hr] at hr'
    cases hr'
    rw [hstate] at hc
    cases hc

/-- The one that has the record lets go of it. -/
theorem State.Idle.release {t : State} (hf : t.Idle)
    (hr : ∀ r, t.record = some r → r.row.state = .COMPLETED → r.storedBy = some r.row.requestHash) : Claimed t where
  own i _ _ _ hi := absurd hi (hf i _ _ _)
  one i _ _ _ _ _ _ _ hi _ := absurd hi (hf i _ _ _)
  stored := hr

theorem Claimed.idle_of_none {s : State} (h : Claimed s) (hr : s.record = none) : s.Idle := by
  intro i pk fingerprint claim hi
  obtain ⟨r, hr', -⟩ := h.own i pk fingerprint claim hi
  rw [hr] at hr'
  cases hr'

theorem Claimed.idle_of_not_live {s : State} {r : Record} (h : Claimed s) (hr : s.record = some r)
    (hl : ¬ s.Live r.claim) : s.Idle := by
  intro i pk fingerprint claim hi
  obtain ⟨r', hr', -, hclaim, -⟩ := h.own i pk fingerprint claim hi
  rw [hr] at hr'
  cases hr'
  exact hl ⟨i, pk, fingerprint, hclaim ▸ hi⟩

theorem Claimed.idle_of_working {s : State} {i pk claim : ℕ} {fingerprint : String} (h : Claimed s)
    (hi : s.flights i = some (.working pk fingerprint claim)) : (s.setFlight i none).Idle := by
  intro j pk' fingerprint' claim' hj
  rcases flights_setFlight hj with ⟨-, ho⟩ | ⟨hne, hj⟩
  · cases ho
  · exact hne (h.one j i _ _ _ _ _ _ hj hi)

/-- **One access** that is orderly leaves at most one claim. -/
theorem Claimed.step {s : State} (x : Step) (h : Claimed s) (hx : Orderly x s) : Claimed (step E ttl x s) := by
  cases x with
  | arrive i payload =>
    simp only [Idempotency.step]
    split
    · exact h
    · exact h.setFlight (by simp)
  | create i =>
    simp only [Idempotency.step]
    split
    · split
      · exact h.setFlight (by simp)
      · rename_i hr
        exact (h.idle_of_none hr).claim rfl rfl rfl
    · exact h
  | get i =>
    simp only [Idempotency.step]
    split
    · rename_i fingerprint now hi
      obtain ⟨r, hr, hlive⟩ := hx fingerprint now hi
      rw [hr]
      by_cases he : r.row.expiresAt ≤ now
      · have hb : begin₂ fingerprint now ttl s.claims (some r) = .claimed (takenOver fingerprint now ttl s.claims r) :=
          if_pos he
        rw [hb]
        exact (h.idle_of_not_live hr (hlive he)).claim rfl rfl rfl
      · have hb : ∀ r', begin₂ fingerprint now ttl s.claims (some r) ≠ .claimed r' := by
          intro r'
          unfold begin₂
          dsimp only
          rw [if_neg he]
          split
          · exact nofun
          · split <;> exact nofun
        split
        · rename_i r' hr'
          exact absurd hr' (hb r')
        · exact h.setFlight (by simp)
    · exact h
  | finish i outcome =>
    simp only [Idempotency.step]
    split
    · rename_i pk fingerprint claim hi
      obtain ⟨r, hr, hpk, -, hhash, hstate⟩ := h.own i pk fingerprint claim hi
      have hidle := h.idle_of_working hi
      split
      · rename_i status body
        refine State.Idle.release hidle fun r' hr' _ => ?_
        dsimp only at hr'
        rw [hr, Option.map_some, complete, if_pos hpk] at hr'
        cases hr'
        exact congrArg some hhash.symm
      · refine State.Idle.release hidle fun r' hr' _ => ?_
        dsimp only at hr'
        rw [hr, abandon, Option.filter_some, if_neg (by simp [hpk, hstate])] at hr'
        cases hr'
    · exact h
  | stop i => exact h.setFlight (by simp)

theorem Claimed.proper {s : State} (x : Step) (h : Claimed s) (hx : Orderly x s) : Proper ttl x s := by
  cases x with
  | get i =>
    intro fingerprint now hi
    obtain ⟨r, hr, -⟩ := hx fingerprint now hi
    rw [hr]
    unfold begin₂
    dsimp only
    split
    · exact ⟨nofun, nofun⟩
    · split
      · exact ⟨nofun, nofun⟩
      · split
        · exact ⟨nofun, nofun⟩
        · rename_i hhash hstate
          refine ⟨nofun, fun r' he => ?_⟩
          cases he
          rw [h.stored r hr (not_not.1 hstate), not_not.1 hhash]
  | finish i outcome =>
    intro pk fingerprint claim r hi hr _ hne
    obtain ⟨r', hr', -, hclaim, -⟩ := h.own i pk fingerprint claim hi
    rw [hr] at hr'
    cases hr'
    exact absurd hclaim hne
  | arrive i payload => trivial
  | create i => trivial
  | stop i => trivial

/-- **Idempotency keys**: in a run of requests with a scope and key, every access
is proper, if no record is deleted before a request that was refused for it has
looked at it, and none expires before its request has ended. -/
theorem requests_proper (E : Env) (ttl : ℕ) {xs : List (Time × Step)}
    (h : Steps.Always (tick E ttl) (Timely Orderly) xs {}) :
    Steps.Always (tick E ttl) (Timely (Proper ttl)) xs {} := by
  have hinit : Claimed {} := ⟨nofun, nofun, nofun⟩
  have hclock : ∀ {s : State} {now : Time}, Claimed s → Claimed { s with clock := now } :=
    fun h => ⟨h.own, h.one, h.stored⟩
  exact Steps.Always.imp (I := Claimed) (fun _ _ hs hx => (hclock hs).step _ hx.2)
    (fun _ _ hs hx => ⟨hx.1, (hclock hs).proper _ hx.2⟩) hinit h

/-- The second request comes when the first has stored its response. -/
theorem requests_proper_replay :
    Steps.Always (tick Env.plain DEFAULT_TTL) (Timely (Proper DEFAULT_TTL))
      [(0, .arrive 0 .null), (0, .create 0), (1, .finish 0 (.result 201 (.bool true))), (2, .arrive 1 .null),
        (2, .create 1), (2, .get 1)] {} := by
  refine requests_proper Env.plain DEFAULT_TTL ⟨⟨?_, trivial⟩, ⟨?_, trivial⟩, ⟨?_, trivial⟩, ⟨?_, trivial⟩,
    ⟨?_, trivial⟩, ⟨?_, fun fingerprint now hi => ⟨_, rfl, fun he => ?_⟩⟩, trivial⟩
  iterate 6 decide
  have hnow : now = 2 := by cases hi; rfl
  rw [hnow] at he
  exact absurd he (by decide)

/-- A request whose insert failed looks at the record when the other has just
given up and deleted it. -/
theorem not_requests_proper : ¬ ∀ (E : Env) (ttl : ℕ) (xs : List (Time × Step)),
    Steps.Always (tick E ttl) (Timely fun _ _ => True) xs {} →
      Steps.Always (tick E ttl) (Timely (Proper ttl)) xs {} := by
  intro h
  have hrun := h Env.plain DEFAULT_TTL
    [(0, .arrive 0 .null), (0, .create 0), (1, .arrive 1 .null), (1, .create 1), (2, .finish 0 .raised), (3, .get 1)]
    ⟨⟨by decide, trivial⟩, ⟨by decide, trivial⟩, ⟨by decide, trivial⟩, ⟨by decide, trivial⟩, ⟨by decide, trivial⟩,
      ⟨by decide, trivial⟩, trivial⟩
  obtain ⟨-, -, -, -, -, hget, -⟩ := hrun
  exact (hget.2 _ _ rfl).1 rfl

end Idempotency
end FlexyVotes
