/-
# The inbox of webhooks

`handle_webhook` keeps a delivery whose signature is good under the hash of its body,
and dispatches what it tells of, unless an earlier delivery of the same body was
dispatched to its end. The provider delivers again what was not answered with 200;
deliveries are handled side by side, and a worker may be lost at any moment.

What is answered with 200 was dispatched, by this delivery or an earlier one
(`acknowledged_dispatched`); and as soon as a body is settled and no delivery of it is
under way, nothing that it tells of is dispatched again (`settled_quiet`).

What a dispatch does to the payments is not looked at here.

Key definitions: `step`, `Sound`, `Quiet`.
Key theorems: `Sound.step`, `acknowledged_dispatched`, `settled_quiet`.
-/
import FlexyVotes.Core.Audit
import FlexyVotes.Lib.Entries
import FlexyVotes.Lib.Steps

namespace FlexyVotes
namespace Inbox

open Audit (truncate)

/-- `WebhookEvent.Status`, without `DUPLICATE`, which nothing writes. -/
inductive Status
  | RECEIVED | PROCESSED | IGNORED | FAILED
  deriving DecidableEq

/-- `record.status in (PROCESSED, IGNORED)`. -/
def Status.settled : Status → Bool
  | .PROCESSED | .IGNORED => true
  | .RECEIVED | .FAILED => false

/-- `WebhookEvent`, under its hash. -/
structure Record where
  status : Status := .RECEIVED
  error : String := ""
  attempts : ℕ := 1
  processedAt : Option Time := none

structure Delivery where
  body : String
  /-- The signature is that of the body. -/
  signed : Bool
  /-- The body is JSON. -/
  wellFormed : Bool

/-- What comes of `_dispatch_webhook`. -/
inductive Outcome
  | processed
  | ignored
  | failed (message : String)

def Outcome.text : Outcome → String
  | .processed => "processed"
  | .ignored => "ignored"
  | .failed _ => "failed"

def Outcome.status : Outcome → Status
  | .processed => .PROCESSED
  | .ignored => .IGNORED
  | .failed _ => .FAILED

def Outcome.error : Outcome → String
  | .processed | .ignored => ""
  | .failed message => truncate 1000 message

/-- The status of the response. -/
def Outcome.code : Outcome → ℕ
  | .processed | .ignored => 200
  | .failed _ => 500

inductive Phase
  | dispatching
  | saving (outcome : Outcome)

/-- What was answered to a delivery of the body with the hash. -/
structure Answer where
  payloadHash : String
  code : ℕ
  text : String

structure State where
  records : List (String × Record) := []
  /-- The deliveries that are under way: the hash and how far they are. -/
  calls : List (ℕ × String × Phase) := []
  answers : List Answer := []
  /-- The hashes of the dispatches that came to their end. -/
  dispatched : List String := []
  clock : Time := 0

inductive Step
  | deliver (i : ℕ) (q : Delivery)
  | dispatch (i : ℕ) (outcome : Outcome)
  | save (i : ℕ)
  | crash (i : ℕ)

variable (E : Env)

def State.answer (payloadHash : String) (code : ℕ) (text : String) (s : State) : State :=
  { s with answers := ⟨payloadHash, code, text⟩ :: s.answers }

def State.setCall (i : ℕ) (o : Option (String × Phase)) (s : State) : State := { s with calls := Entries.put i o s.calls }

def State.setRecord (payloadHash : String) (r : Record) (s : State) : State :=
  { s with records := Entries.put payloadHash (some r) s.records }

/-- `get_or_create`, and the check that follows. -/
def State.keep (i : ℕ) (payloadHash : String) (s : State) : State :=
  match Entries.get payloadHash s.records with
  | none => (s.setRecord payloadHash {}).setCall i (some (payloadHash, .dispatching))
  | some r =>
    let s := s.setRecord payloadHash { r with attempts := r.attempts + 1 }
    if r.status.settled then s.answer payloadHash 200 "duplicate"
    else s.setCall i (some (payloadHash, .dispatching))

/-- The outcome is saved and answered. -/
def State.finish (i : ℕ) (payloadHash : String) (outcome : Outcome) (s : State) : State :=
  match Entries.get payloadHash s.records with
  | none => s
  | some r =>
    ((s.setRecord payloadHash
      { r with status := outcome.status, error := outcome.error, processedAt := some s.clock }).setCall i none).answer
      payloadHash outcome.code outcome.text

def step : Step → State → State
  | .deliver i q, s =>
    if !q.signed then s.answer (E.sha256 q.body) 401 "invalid signature"
    else if !q.wellFormed then s.answer (E.sha256 q.body) 400 "malformed"
    else s.keep i (E.sha256 q.body)
  | .dispatch i outcome, s =>
    match Entries.get i s.calls with
    | some (payloadHash, .dispatching) =>
      { s.setCall i (some (payloadHash, .saving outcome)) with
        dispatched := if outcome.status.settled then payloadHash :: s.dispatched else s.dispatched }
    | some (_, .saving _) | none => s
  | .save i, s =>
    match Entries.get i s.calls with
    | some (payloadHash, .saving outcome) => s.finish i payloadHash outcome
    | some (_, .dispatching) | none => s
  | .crash i, s => s.setCall i none

def State.upTo (s : State) (now : Time) : State := { s with clock := now }

/-- A step at its moment. -/
def tick (x : Time × Step) (s : State) : State := step E x.2 (s.upTo x.1)

/-! ### What was dispatched -/

/-- What is settled was dispatched, and so was what is answered with 200. -/
structure Sound (s : State) : Prop where
  recordsKeyed : Entries.Keyed s.records
  callsKeyed : Entries.Keyed s.calls
  records : ∀ key r, Entries.get key s.records = some r → r.status.settled = true → key ∈ s.dispatched
  calls : ∀ i key outcome, Entries.get i s.calls = some (key, .saving outcome) → outcome.status.settled = true →
    key ∈ s.dispatched
  answers : ∀ a ∈ s.answers, a.code = 200 → a.payloadHash ∈ s.dispatched

variable {E} {s : State} {i : ℕ} {key : String}

theorem Sound.start : Sound {} where
  recordsKeyed := Entries.Keyed.nil
  callsKeyed := Entries.Keyed.nil
  records key r h := by cases h
  calls i key outcome h := by cases h
  answers a h := by cases h

theorem Sound.upTo (h : Sound s) (now : Time) : Sound (s.upTo now) where
  recordsKeyed := h.recordsKeyed
  callsKeyed := h.callsKeyed
  records := h.records
  calls := h.calls
  answers := h.answers

theorem Sound.setCall {o : Option (String × Phase)} (h : Sound s)
    (ho : ∀ key outcome, o = some (key, .saving outcome) → outcome.status.settled = true → key ∈ s.dispatched) :
    Sound (s.setCall i o) where
  recordsKeyed := h.recordsKeyed
  callsKeyed := h.callsKeyed.put
  records := h.records
  calls j key outcome hj hsettled := by
    have hput := (Entries.get_put h.callsKeyed).symm.trans hj
    split at hput
    · exact ho key outcome hput hsettled
    · exact h.calls j key outcome hput hsettled
  answers := h.answers

theorem Sound.setRecord {r : Record} (h : Sound s) (hr : r.status.settled = true → key ∈ s.dispatched) :
    Sound (s.setRecord key r) where
  recordsKeyed := h.recordsKeyed.put
  callsKeyed := h.callsKeyed
  records := Entries.forall_put h.recordsKeyed h.records fun r' hr' hsettled => by
    cases hr'
    exact hr hsettled
  calls := h.calls
  answers := h.answers

theorem Sound.answer {code : ℕ} {text : String} (h : Sound s) (hcode : code = 200 → key ∈ s.dispatched) :
    Sound (s.answer key code text) where
  recordsKeyed := h.recordsKeyed
  callsKeyed := h.callsKeyed
  records := h.records
  calls := h.calls
  answers a ha h200 := by
    rcases List.mem_cons.mp ha with rfl | ha
    · exact hcode h200
    · exact h.answers a ha h200

theorem Sound.dispatch (h : Sound s) (key : String) : Sound { s with dispatched := key :: s.dispatched } where
  recordsKeyed := h.recordsKeyed
  callsKeyed := h.callsKeyed
  records key' r hr hsettled := List.mem_cons_of_mem _ (h.records key' r hr hsettled)
  calls i key' outcome hi hsettled := List.mem_cons_of_mem _ (h.calls i key' outcome hi hsettled)
  answers a ha h200 := List.mem_cons_of_mem _ (h.answers a ha h200)

theorem Sound.keep (h : Sound s) (i : ℕ) (key : String) : Sound (s.keep i key) := by
  unfold State.keep
  split
  · refine (h.setRecord fun hsettled => ?_).setCall fun _ _ hnew => ?_
    · cases hsettled
    · cases hnew
  · rename_i r hr
    have hset : Sound (s.setRecord key { r with attempts := r.attempts + 1 }) :=
      h.setRecord fun hsettled => h.records key r hr hsettled
    dsimp only
    split
    · rename_i hsettled
      exact hset.answer fun _ => h.records key r hr hsettled
    · exact hset.setCall fun _ _ hnew => by cases hnew

/-- Only what is settled is answered with 200. -/
theorem settled_of_code {outcome : Outcome} (h : outcome.code = 200) : outcome.status.settled = true := by
  cases outcome with
  | processed => rfl
  | ignored => rfl
  | failed message => cases h

theorem Sound.finish {outcome : Outcome} (h : Sound s) (hi : Entries.get i s.calls = some (key, .saving outcome)) :
    Sound (s.finish i key outcome) := by
  unfold State.finish
  split
  · exact h
  · refine ((h.setRecord fun hsettled => ?_).setCall fun _ _ hnone => ?_).answer fun hcode => ?_
    · exact h.calls i key outcome hi hsettled
    · cases hnone
    · exact h.calls i key outcome hi (settled_of_code hcode)

theorem Sound.step (h : Sound s) (x : Step) : Sound (step E x s) := by
  unfold Inbox.step
  cases x with
  | deliver i q =>
    dsimp only
    split
    · exact h.answer fun hcode => by cases hcode
    · split
      · exact h.answer fun hcode => by cases hcode
      · exact h.keep i _
  | dispatch i outcome =>
    dsimp only
    split
    · rename_i key hi
      split
      · refine (h.dispatch key).setCall fun key' outcome' hnew _ => ?_
        cases hnew
        exact List.mem_cons_self ..
      · rename_i hnot
        refine h.setCall fun key' outcome' hnew hsettled => ?_
        cases hnew
        exact absurd hsettled hnot
    · exact h
    · exact h
  | save i =>
    dsimp only
    split
    · rename_i hi
      exact h.finish hi
    · exact h
    · exact h
  | crash i => exact h.setCall fun _ _ hnone => by cases hnone

/-- **What is answered with 200 was dispatched to its end, by this delivery or by one
before.** -/
theorem acknowledged_dispatched (xs : List (Time × Step)) :
    ∀ a ∈ (Steps.run (tick E) xs {}).answers, a.code = 200 → a.payloadHash ∈ (Steps.run (tick E) xs {}).dispatched := by
  have hsound : Sound (Steps.run (tick E) xs {}) :=
    Steps.Always.run (C := fun _ _ => True) (fun x s hs _ => (hs.upTo x.1).step x.2) Sound.start
      (Steps.Always.of_forall fun _ _ => trivial)
  exact hsound.answers

/-- A body that cannot be dispatched, comes again and is dispatched. -/
def retried : List (Time × Step) :=
  [(0, .deliver 0 ⟨"\x7b\x7d", true, true⟩), (1, .dispatch 0 (.failed "OperationalError")), (2, .save 0),
    (3, .deliver 1 ⟨"\x7b\x7d", true, true⟩), (4, .dispatch 1 .processed), (5, .save 1)]

theorem acknowledged_dispatched_retried : "\x7b\x7d" ∈ (Steps.run (tick Env.plain) retried {}).dispatched := by
  have hanswers : (Steps.run (tick Env.plain) retried {}).answers =
      [⟨"\x7b\x7d", 200, "processed"⟩, ⟨"\x7b\x7d", 500, "failed"⟩] := rfl
  exact acknowledged_dispatched retried ⟨"\x7b\x7d", 200, "processed"⟩ (hanswers ▸ List.mem_cons_self ..) rfl

/-! ### What is not dispatched again -/

/-- The body is settled, and no delivery of it is under way. -/
structure Quiet (key : String) (n : ℕ) (s : State) : Prop where
  recordsKeyed : Entries.Keyed s.records
  callsKeyed : Entries.Keyed s.calls
  settled : ∃ r, Entries.get key s.records = some r ∧ r.status.settled = true
  idle : ∀ i phase, Entries.get i s.calls ≠ some (key, phase)
  count : s.dispatched.count key = n

variable {n : ℕ}

theorem Quiet.upTo (h : Quiet key n s) (now : Time) : Quiet key n (s.upTo now) where
  recordsKeyed := h.recordsKeyed
  callsKeyed := h.callsKeyed
  settled := h.settled
  idle := h.idle
  count := h.count

theorem Quiet.setCall {o : Option (String × Phase)} (h : Quiet key n s) (ho : ∀ phase, o ≠ some (key, phase)) :
    Quiet key n (s.setCall i o) where
  recordsKeyed := h.recordsKeyed
  callsKeyed := h.callsKeyed.put
  settled := h.settled
  idle j phase hj := by
    have hput := (Entries.get_put h.callsKeyed).symm.trans hj
    split at hput
    · exact ho phase hput
    · exact h.idle j phase hput
  count := h.count

theorem Quiet.setRecord {key' : String} {r : Record} (h : Quiet key n s) (hr : key' = key → r.status.settled = true) :
    Quiet key n (s.setRecord key' r) where
  recordsKeyed := h.recordsKeyed.put
  callsKeyed := h.callsKeyed
  settled := by
    obtain ⟨old, hold, hsettled⟩ := h.settled
    by_cases hkey : key' = key
    · exact ⟨r, (Entries.get_put h.recordsKeyed).trans (if_pos hkey.symm), hr hkey⟩
    · exact ⟨old, ((Entries.get_put h.recordsKeyed).trans (if_neg (Ne.symm hkey))).trans hold, hsettled⟩
  idle := h.idle
  count := h.count

theorem Quiet.answer {key' text : String} {code : ℕ} (h : Quiet key n s) : Quiet key n (s.answer key' code text) where
  recordsKeyed := h.recordsKeyed
  callsKeyed := h.callsKeyed
  settled := h.settled
  idle := h.idle
  count := h.count

theorem Quiet.dispatch {key' : String} (h : Quiet key n s) (hne : key' ≠ key) :
    Quiet key n { s with dispatched := key' :: s.dispatched } where
  recordsKeyed := h.recordsKeyed
  callsKeyed := h.callsKeyed
  settled := h.settled
  idle := h.idle
  count := (List.count_cons_of_ne hne).trans h.count

theorem Quiet.keep (h : Quiet key n s) (i : ℕ) (key' : String) : Quiet key n (s.keep i key') := by
  obtain ⟨old, hold, hsettled⟩ := h.settled
  unfold State.keep
  split
  · rename_i hnone
    -- a body that comes for the first time is another one
    have hne : key' ≠ key := by
      rintro rfl
      rw [hold] at hnone
      cases hnone
    refine (h.setRecord fun hkey => absurd hkey hne).setCall fun phase hnew => ?_
    cases hnew
    exact hne rfl
  · rename_i r hr
    have hset : Quiet key n (s.setRecord key' { r with attempts := r.attempts + 1 }) := by
      refine h.setRecord fun hkey => ?_
      rw [hkey, hold] at hr
      cases hr
      exact hsettled
    dsimp only
    split
    · exact hset.answer
    · rename_i hnot
      refine hset.setCall fun phase hnew => hnot ?_
      cases hnew
      rw [hold] at hr
      cases hr
      exact hsettled

theorem Quiet.finish {key' : String} {outcome : Outcome} (h : Quiet key n s) (hne : key' ≠ key) :
    Quiet key n (s.finish i key' outcome) := by
  unfold State.finish
  split
  · exact h
  · exact ((h.setRecord fun hkey => absurd hkey hne).setCall fun _ hnone => by cases hnone).answer

theorem Quiet.step (h : Quiet key n s) (x : Step) : Quiet key n (step E x s) := by
  have hother : ∀ i key' phase, Entries.get i s.calls = some (key', phase) → key' ≠ key := by
    rintro i key' phase hi rfl
    exact h.idle i phase hi
  unfold Inbox.step
  cases x with
  | deliver i q =>
    dsimp only
    split
    · exact h.answer
    · split
      · exact h.answer
      · exact h.keep i _
  | dispatch i outcome =>
    dsimp only
    split
    · rename_i key' hi
      have hne := hother i key' _ hi
      have hcall : Quiet key n (s.setCall i (some (key', .saving outcome))) := by
        refine h.setCall fun phase hnew => ?_
        cases hnew
        exact hne rfl
      split
      · exact hcall.dispatch hne
      · exact hcall
    · exact h
    · exact h
  | save i =>
    dsimp only
    split
    · rename_i key' outcome hi
      exact h.finish (hother i key' _ hi)
    · exact h
    · exact h
  | crash i => exact h.setCall fun _ hnone => by cases hnone

/-- **As soon as a body is settled and no delivery of it is under way, it is not
dispatched again, however often it comes.** -/
theorem settled_quiet {before xs : List (Time × Step)} {r : Record}
    (hr : Entries.get key (Steps.run (tick E) before {}).records = some r) (hsettled : r.status.settled = true)
    (hidle : ∀ i phase, Entries.get i (Steps.run (tick E) before {}).calls ≠ some (key, phase)) :
    (Steps.run (tick E) (before ++ xs) {}).dispatched.count key = (Steps.run (tick E) before {}).dispatched.count key := by
  have hsound : Sound (Steps.run (tick E) before {}) :=
    Steps.Always.run (C := fun _ _ => True) (fun x s hs _ => (hs.upTo x.1).step x.2) Sound.start
      (Steps.Always.of_forall fun _ _ => trivial)
  rw [Steps.run_append]
  generalize Steps.run (tick E) before {} = s at hr hidle hsound
  have hquiet : Quiet key (s.dispatched.count key) (Steps.run (tick E) xs s) :=
    Steps.Always.run (C := fun _ _ => True) (fun x s hs _ => (hs.upTo x.1).step x.2)
      ⟨hsound.recordsKeyed, hsound.callsKeyed, ⟨r, hr, hsettled⟩, hidle, rfl⟩ (Steps.Always.of_forall fun _ _ => trivial)
  exact hquiet.count

theorem settled_quiet_retried : (Steps.run (tick Env.plain) (retried ++ retried) {}).dispatched.count "\x7b\x7d" =
    (Steps.run (tick Env.plain) retried {}).dispatched.count "\x7b\x7d" := by
  have hr : Entries.get "\x7b\x7d" (Steps.run (tick Env.plain) retried {}).records = some ⟨.PROCESSED, "", 2, some 5⟩ := rfl
  have hnil : (Steps.run (tick Env.plain) retried {}).calls = [] := rfl
  refine settled_quiet hr rfl fun i phase hi => ?_
  rw [hnil] at hi
  cases hi

end Inbox
end FlexyVotes
