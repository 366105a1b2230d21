/-
# The second factor of a voter

A browser's session holds, by election, the voter who is signed in, and beside that
one passcode that is being waited for: that of a sign-in, or that of a second factor.
A request works on its copy of the session, from when it reads the session to when it
saves it; requests of one browser run side by side, and the copy that is saved last
stays. Signing in draws a new key for the session.

Whoever the pages of the ballot let through has signed in to this election and, where
the election asks for it, has answered a passcode that was sent to no one else: the
one the session waits for as a second factor is that of the voter who is signed in,
whichever copy is read (`voter_proved`). It is no more than twenty minutes since then,
or since a second factor was answered in the session.

Not covered: an election that comes to require a second factor after voters have
signed in to it.

Key definitions: `Data`, `afterPrimaryAuth`, `step`, `Good`.
Key theorems: `Good.markSecondFactor`, `Guarded.step`, `voter_proved`.
-/
import FlexyVotes.Core.Login
import FlexyVotes.Lib.Entries
import FlexyVotes.Lib.Steps

namespace FlexyVotes
namespace SecondFactor

open Login (MICROSECONDS)

/-! ### Sessions -/

def SESSION_TTL_SECONDS : ℕ := 20 * 60

inductive Method
  | CODE | LDAP | ACCOUNT | SSO | EMAIL_OTP | SMS_OTP
  deriving DecidableEq

/-- `method in ('EMAIL_OTP', 'SMS_OTP')`. -/
def Method.isOtp : Method → Bool
  | .EMAIL_OTP | .SMS_OTP => true
  | .CODE | .LDAP | .ACCOUNT | .SSO => false

/-- What a voter signs in with who is not sent a passcode. -/
inductive Credential
  | CODE | LDAP | ACCOUNT | SSO

def Credential.method : Credential → Method
  | .CODE => .CODE
  | .LDAP => .LDAP
  | .ACCOUNT => .ACCOUNT
  | .SSO => .SSO

inductive Channel
  | EMAIL | SMS

def Channel.method : Channel → Method
  | .EMAIL => .EMAIL_OTP
  | .SMS => .SMS_OTP

inductive Purpose
  | VOTER_LOGIN | VOTER_2FA
  deriving DecidableEq

/-- An entry of `fv_voter`; `signedAt` is its `at`, in seconds. -/
structure VoterState where
  voter : ℕ
  method : Method
  mfa : Bool
  signedAt : ℕ

/-- `fv_voter_otp`. -/
structure Pending where
  event : ℕ
  voter : Option ℕ
  challenge : ℕ
  purpose : Purpose
  channel : Channel

/-- What of a session tells who is signed in. -/
structure Data where
  voters : List (ℕ × VoterState) := []
  pending : Option Pending := none

def loginVoter (event voter : ℕ) (method : Method) (secondFactor : Bool) (now : Time) (d : Data) : Data :=
  { d with voters := Entries.put event (some ⟨voter, method, secondFactor, now / MICROSECONDS⟩) d.voters }

def markSecondFactor (event : ℕ) (now : Time) (d : Data) : Data :=
  match Entries.get event d.voters with
  | none => d
  | some st => { d with voters := Entries.put event (some { st with mfa := true, signedAt := now / MICROSECONDS }) d.voters }

def logoutVoter (event : ℕ) (d : Data) : Data := { d with voters := Entries.put event none d.voters }

/-- `current_voter`; `onRoll` says whether the voter is on the roll of the election. -/
def currentVoter (onRoll : ℕ → Bool) (event : ℕ) (now : Time) (d : Data) : Option VoterState :=
  (Entries.get event d.voters).filter fun st => now ≤ (st.signedAt + SESSION_TTL_SECONDS) * MICROSECONDS && onRoll st.voter

variable (required : ℕ → Bool)

def needsSecondFactor (event : ℕ) (st : VoterState) : Bool := required event && !st.mfa && !st.method.isOtp

/-- `_require_voter`. -/
def requireVoter (onRoll : ℕ → Bool) (event : ℕ) (now : Time) (d : Data) : Option ℕ :=
  (currentVoter onRoll event now d).bind fun st => if needsSecondFactor required event st then none else some st.voter

/-- `_after_primary_auth`; `issued` is the passcode that `start_otp` sends, if it does. -/
def afterPrimaryAuth (event voter : ℕ) (method : Method) (issued : Option ℕ) (channel : Channel) (now : Time)
    (d : Data) : Data :=
  let d := loginVoter event voter method method.isOtp now d
  if needsSecondFactor required event ⟨voter, method, method.isOtp, now / MICROSECONDS⟩ then
    match issued with
    | none => logoutVoter event d
    | some c => { d with pending := some ⟨event, some voter, c, .VOTER_2FA, channel⟩ }
  else d

/-! ### Requests -/

/-- `OTPChallenge`. -/
structure Challenge where
  purpose : Purpose
  subject : ℕ
  consumedAt : Option Time := none

/-- A voter has signed in; `registered` with a passcode that was sent before there was
a voter. -/
structure SignIn where
  event : ℕ
  voter : ℕ
  method : Method
  moment : Time
  registered : Bool := false

structure State where
  sessions : List (ℕ × Data) := []
  /-- The requests that are under way: the key and the copy of their session. -/
  requests : List (ℕ × ℕ × Data) := []
  challenges : List (ℕ × Challenge) := []
  signIns : List SignIn := []
  clock : Time := 0

inductive Step
  /-- A request reads its session. -/
  | open (i k : ℕ)
  /-- The request has told who it is, by something other than a passcode. -/
  | signIn (i event voter : ℕ) (credential : Credential) (k : ℕ) (issued : Option ℕ) (channel : Channel)
  /-- The request asks for a passcode to sign in with; no voter may be found. -/
  | startOtp (i event : ℕ) (voter : Option ℕ) (c : ℕ) (channel : Channel)
  | resend (i event c : ℕ)
  /-- The request answers the passcode; `right` where its voter is found and the code is
  right, in time and among the attempts. -/
  | otp (i event : ℕ) (right : Bool) (k : ℕ)
  /-- The voter has registered. -/
  | register (i event voter k : ℕ)
  | logout (i event : ℕ)
  /-- Someone signs in to an account in this browser. -/
  | renew (i k : ℕ) (flushed : Bool)
  /-- The request is answered, and may save its copy. -/
  | close (i : ℕ) (saves : Bool)
  /-- A session expires. -/
  | lose (k : ℕ)

def State.setRequest (i k : ℕ) (d : Data) (s : State) : State :=
  { s with requests := Entries.put i (some (k, d)) s.requests }

/-- `cycle_key`: what was read is kept under a new key. -/
def State.cycle (key k : ℕ) (d : Data) (s : State) : State :=
  { s with sessions := Entries.put k (some d) (Entries.put key none s.sessions) }

def State.isFresh (s : State) (c : ℕ) : Bool := (Entries.get c s.challenges).isNone

def State.setChallenge (c : ℕ) (row : Challenge) (s : State) : State :=
  { s with challenges := Entries.put c (some row) s.challenges }

/-- `start_otp`, with a new key for its row. -/
def State.startOtp (c : Option ℕ) (purpose : Purpose) (voter : ℕ) (s : State) : State :=
  match c with
  | none => s
  | some c => s.setChallenge c ⟨purpose, voter, none⟩

/-- `_after_primary_auth` of a request. -/
def State.primaryAuth (i key event voter : ℕ) (method : Method) (k : ℕ) (issued : Option ℕ) (channel : Channel) (d : Data)
    (s : State) : State :=
  let issued := issued.filter s.isFresh
  let s := { s.cycle key k d with signIns := ⟨event, voter, method, s.clock, false⟩ :: s.signIns }
  let s := s.setRequest i k (afterPrimaryAuth required event voter method issued channel s.clock d)
  if needsSecondFactor required event ⟨voter, method, method.isOtp, s.clock / MICROSECONDS⟩ then
    s.startOtp issued .VOTER_2FA voter
  else s

/-- `otp.verify` finds the row of the passcode. -/
def State.found (c : ℕ) (purpose : Purpose) (voter : ℕ) (s : State) : Bool :=
  (Entries.get c s.challenges).any fun row => row.purpose = purpose && row.subject = voter && row.consumedAt.isNone

/-- The passcode was right. -/
def State.accept (i key event voter k : ℕ) (p : Pending) (d : Data) (s : State) : State :=
  let s := s.setChallenge p.challenge ⟨p.purpose, voter, some s.clock⟩
  let d := { d with pending := none }
  if p.purpose = .VOTER_2FA then s.setRequest i key (markSecondFactor event s.clock d)
  else s.primaryAuth required i key event voter p.channel.method k none p.channel d

def step : Step → State → State
  | .open i k, s => s.setRequest i k ((Entries.get k s.sessions).getD {})
  | .signIn i event voter credential k issued channel, s =>
    match Entries.get i s.requests with
    | none => s
    | some (key, d) => s.primaryAuth required i key event voter credential.method k issued channel d
  | .startOtp i event voter c channel, s =>
    match Entries.get i s.requests with
    | none => s
    | some (key, d) =>
      let s := s.setRequest i key { d with pending := some ⟨event, voter, c, .VOTER_LOGIN, channel⟩ }
      match voter with
      | none => s
      | some voter => s.startOtp ((some c).filter s.isFresh) .VOTER_LOGIN voter
  | .resend i event c, s =>
    match Entries.get i s.requests with
    | none => s
    | some (key, d) =>
      match d.pending with
      | none => s
      | some p =>
        match p.voter with
        | none => s
        | some voter =>
          if p.event = event && s.isFresh c then
            (s.setRequest i key { d with pending := some { p with challenge := c } }).startOtp (some c) p.purpose voter
          else s
  | .otp i event right k, s =>
    match Entries.get i s.requests with
    | none => s
    | some (key, d) =>
      match d.pending with
      | none => s
      | some p =>
        match p.voter with
        | none => s
        | some voter =>
          if p.event = event && right && s.found p.challenge p.purpose voter then
            s.accept required i key event voter k p d
          else s
  | .register i event voter k, s =>
    match Entries.get i s.requests with
    | none => s
    | some (key, d) =>
      { s.cycle key k d with signIns := ⟨event, voter, .EMAIL_OTP, s.clock, true⟩ :: s.signIns }.setRequest i k
        (loginVoter event voter .EMAIL_OTP true s.clock d)
  | .logout i event, s =>
    match Entries.get i s.requests with
    | none => s
    | some (key, d) => s.setRequest i key (logoutVoter event d)
  | .renew i k flushed, s =>
    match Entries.get i s.requests with
    | none => s
    | some (key, d) => (s.cycle key k (if flushed then {} else d)).setRequest i k (if flushed then {} else d)
  | .close i saves, s =>
    match Entries.get i s.requests with
    | none => s
    | some (key, d) =>
      { s with
        requests := Entries.put i none s.requests
        sessions := if saves then Entries.put key (some d) s.sessions else s.sessions }
  | .lose k, s => { s with sessions := Entries.put k none s.sessions }

def State.upTo (s : State) (now : Time) : State := { s with clock := now }

/-- A step at its moment. -/
def tick (x : Time × Step) (s : State) : State := step required x.2 (s.upTo x.1)

/-! ### What is kept -/

/-- The voter has answered a passcode that was sent as a second factor. -/
def State.Answered (s : State) (voter : ℕ) : Prop :=
  ∃ c ∈ s.challenges, c.2.purpose = .VOTER_2FA ∧ c.2.subject = voter ∧ c.2.consumedAt.isSome = true

/-- A second factor was answered at the moment. -/
def State.AnsweredAt (s : State) (t : Time) : Prop :=
  ∃ c ∈ s.challenges, c.2.purpose = .VOTER_2FA ∧ c.2.consumedAt = some t

/-- The voter has answered a passcode to sign in with. -/
def State.Passed (s : State) (n : SignIn) : Prop :=
  ∃ c ∈ s.challenges, c.2.purpose = .VOTER_LOGIN ∧ c.2.subject = n.voter ∧ c.2.consumedAt = some n.moment

/-- The voter of the entry has signed in, and answered a second factor if it says so. -/
structure Backed (s : State) (event : ℕ) (st : VoterState) : Prop where
  signed : ∃ n ∈ s.signIns, n.event = event ∧ n.voter = st.voter ∧ n.method = st.method ∧
    ∃ t, st.signedAt = t / MICROSECONDS ∧ (t = n.moment ∨ s.AnsweredAt t)
  factor : st.mfa = true → st.method.isOtp = true ∨ s.Answered st.voter

/-- The second factor that is waited for is that of the voter who is signed in. -/
structure Awaits (p : Pending) (d : Data) : Prop where
  needed : required p.event = true
  voter : ∀ st, Entries.get p.event d.voters = some st → st.mfa = false → st.method.isOtp = false → p.voter = some st.voter

structure Good (s : State) (d : Data) : Prop where
  keyed : Entries.Keyed d.voters
  backed : ∀ e st, Entries.get e d.voters = some st → Backed s e st
  awaits : ∀ p ∈ d.pending, p.purpose = .VOTER_2FA → Awaits required p d

/-- Every session and every copy of one is good. -/
structure Guarded (s : State) : Prop where
  sessionsKeyed : Entries.Keyed s.sessions
  requestsKeyed : Entries.Keyed s.requests
  challengesKeyed : Entries.Keyed s.challenges
  sessions : ∀ k d, Entries.get k s.sessions = some d → Good required s d
  requests : ∀ i k d, Entries.get i s.requests = some (k, d) → Good required s d
  passcodes : ∀ n ∈ s.signIns, n.method.isOtp = true → n.registered = true ∨ s.Passed n

/-- Nobody who has signed in and no passcode that was answered is forgotten. -/
structure Grows (s s' : State) : Prop where
  signIns : ∀ n ∈ s.signIns, n ∈ s'.signIns
  challenges : ∀ c ∈ s.challenges, c.2.consumedAt.isSome = true → c ∈ s'.challenges

variable {required} {s s' : State} {d : Data} {i k key event voter : ℕ} {method : Method}

theorem Grows.answered (h : Grows s s') : s.Answered voter → s'.Answered voter
  | ⟨c, hc, hp, hv, hs⟩ => ⟨c, h.challenges c hc hs, hp, hv, hs⟩

theorem Grows.answeredAt {t : Time} (h : Grows s s') : s.AnsweredAt t → s'.AnsweredAt t
  | ⟨c, hc, hp, hs⟩ => ⟨c, h.challenges c hc (by rw [hs]; rfl), hp, hs⟩

theorem Grows.passed {n : SignIn} (h : Grows s s') : s.Passed n → s'.Passed n
  | ⟨c, hc, hp, hv, hs⟩ => ⟨c, h.challenges c hc (by rw [hs]; rfl), hp, hv, hs⟩

theorem Backed.mono {st : VoterState} (h : Backed s event st) (hg : Grows s s') : Backed s' event st where
  signed := by
    obtain ⟨n, hn, he, hv, hm, t, ht, hor⟩ := h.signed
    exact ⟨n, hg.signIns n hn, he, hv, hm, t, ht, hor.imp id hg.answeredAt⟩
  factor hmfa := (h.factor hmfa).imp id hg.answered

theorem Good.mono (h : Good required s d) (hg : Grows s s') : Good required s' d where
  keyed := h.keyed
  backed e st hst := (h.backed e st hst).mono hg
  awaits := h.awaits

/-! ### Sessions that change -/

theorem Good.empty : Good required s {} where
  keyed := Entries.Keyed.nil
  backed e st h := by cases h
  awaits p h := by cases h

/-- The session waits for another passcode. -/
theorem Good.setPending {p : Pending} (h : Good required s d) (hp : p.purpose = .VOTER_2FA → Awaits required p d) :
    Good required s { d with pending := some p } where
  keyed := h.keyed
  backed := h.backed
  awaits q hq h2fa := by
    cases hq
    exact ⟨(hp h2fa).needed, (hp h2fa).voter⟩

theorem Good.dropPending (h : Good required s d) : Good required s { d with pending := none } where
  keyed := h.keyed
  backed := h.backed
  awaits q hq := by cases hq

theorem Good.logoutVoter (h : Good required s d) (event : ℕ) : Good required s (logoutVoter event d) where
  keyed := h.keyed.put
  backed := Entries.forall_put h.keyed h.backed fun st hst => by cases hst
  awaits p hp h2fa := by
    refine ⟨(h.awaits p hp h2fa).needed, fun st hst => ?_⟩
    have hput := (Entries.get_put h.keyed).symm.trans hst
    split at hput
    · cases hput
    · exact (h.awaits p hp h2fa).voter st hput

/-- The entry of the election is written; unless it lacks a second factor, what the
session waits for may stay. -/
theorem Good.put {st : VoterState} (h : Good required s d) (hst : Backed s event st)
    (hmfa : required event = true → st.mfa = false → st.method.isOtp = false → False) :
    Good required s { d with voters := Entries.put event (some st) d.voters } where
  keyed := h.keyed.put
  backed := Entries.forall_put h.keyed h.backed fun st' hst' => by
    cases hst'
    exact hst
  awaits p hp h2fa := by
    have hawaits := h.awaits p hp h2fa
    refine ⟨hawaits.needed, fun st' hst' hnot hotp => ?_⟩
    have hput := (Entries.get_put h.keyed).symm.trans hst'
    split at hput
    · rename_i he
      cases hput
      exact (hmfa (he ▸ hawaits.needed) hnot hotp).elim
    · exact hawaits.voter st' hput hnot hotp

/-- A voter has signed in just now. -/
theorem backed_new {registered mfa : Bool} (hn : ⟨event, voter, method, s.clock, registered⟩ ∈ s.signIns)
    (hmfa : mfa = true → method.isOtp = true) : Backed s event ⟨voter, method, mfa, s.clock / MICROSECONDS⟩ where
  signed := ⟨_, hn, rfl, rfl, rfl, s.clock, rfl, Or.inl rfl⟩
  factor h := Or.inl (hmfa h)

theorem Good.afterPrimaryAuth (issued : Option ℕ) (channel : Channel) (h : Good required s d)
    (hn : ⟨event, voter, method, s.clock, false⟩ ∈ s.signIns) :
    Good required s (afterPrimaryAuth required event voter method issued channel s.clock d) := by
  have hbacked : Backed s event ⟨voter, method, method.isOtp, s.clock / MICROSECONDS⟩ := backed_new hn id
  unfold SecondFactor.afterPrimaryAuth loginVoter
  dsimp only
  split
  · rename_i hneeds
    have hrequired : required event = true := by
      unfold needsSecondFactor at hneeds
      simp only [Bool.and_eq_true] at hneeds
      exact hneeds.1.1
    -- what was waited for before does not matter: it is replaced, or the voter is signed out
    have hwritten : Good required s
        ⟨Entries.put event (some ⟨voter, method, method.isOtp, s.clock / MICROSECONDS⟩) d.voters, none⟩ :=
      { keyed := h.keyed.put
        backed := Entries.forall_put h.keyed h.backed fun st hst => by
          cases hst
          exact hbacked
        awaits := fun p hp => by cases hp }
    cases issued with
    | none =>
      refine ⟨h.keyed.put.put, ((hwritten.logoutVoter event).backed), fun p hp h2fa => ?_⟩
      refine ⟨(h.awaits p hp h2fa).needed, fun st hst => ?_⟩
      have hput := (Entries.get_put h.keyed.put).symm.trans hst
      split at hput
      · cases hput
      · rename_i hne
        rw [Entries.get_put h.keyed, if_neg hne] at hput
        exact (h.awaits p hp h2fa).voter st hput
    | some c =>
      refine hwritten.setPending fun _ => ⟨hrequired, fun st hst _ _ => ?_⟩
      have hput := (Entries.get_put h.keyed).symm.trans hst
      rw [if_pos rfl] at hput
      cases hput
      rfl
  · rename_i hneeds
    refine h.put hbacked fun hrequired hnot hotp => hneeds ?_
    unfold needsSecondFactor
    simp only [hrequired, Bool.true_and, Bool.and_eq_true, Bool.not_eq_true']
    exact ⟨hnot, hotp⟩

/-- The voter who is signed in and lacks a second factor is the one who has answered. -/
theorem Good.markSecondFactor {p : Pending} (h : Good required s d) (hp : d.pending = some p) (h2fa : p.purpose = .VOTER_2FA)
    (hvoter : p.voter = some voter) (hanswered : s.Answered voter) (hnow : s.AnsweredAt s.clock) :
    Good required s (markSecondFactor p.event s.clock { d with pending := none }) := by
  unfold SecondFactor.markSecondFactor
  dsimp only
  split
  · exact h.dropPending
  · rename_i st hst
    have hbacked := h.backed p.event st hst
    refine h.dropPending.put ⟨?_, fun _ => ?_⟩ fun _ hnot => by cases hnot
    · obtain ⟨n, hn, he, hv, hm, -⟩ := hbacked.signed
      exact ⟨n, hn, he, hv, hm, s.clock, rfl, Or.inr hnow⟩
    · rcases hmfa : st.mfa with _ | _
      · rcases hotp : st.method.isOtp with _ | _
        · have hsame := (h.awaits p hp h2fa).voter st hst hmfa hotp
          rw [hvoter] at hsame
          cases hsame
          exact Or.inr hanswered
        · exact Or.inl rfl
      · exact hbacked.factor hmfa

/-! ### Requests that change the state -/

theorem Guarded.start : Guarded required {} where
  sessionsKeyed := Entries.Keyed.nil
  requestsKeyed := Entries.Keyed.nil
  challengesKeyed := Entries.Keyed.nil
  sessions k d h := by cases h
  requests i k d h := by cases h
  passcodes n h := by cases h

theorem Guarded.upTo (h : Guarded required s) (now : Time) : Guarded required (s.upTo now) where
  sessionsKeyed := h.sessionsKeyed
  requestsKeyed := h.requestsKeyed
  challengesKeyed := h.challengesKeyed
  sessions k d hd := (h.sessions k d hd).mono ⟨fun _ hn => hn, fun _ hc _ => hc⟩
  requests i k d hd := (h.requests i k d hd).mono ⟨fun _ hn => hn, fun _ hc _ => hc⟩
  passcodes := h.passcodes

theorem grows_rest {sessions : List (ℕ × Data)} {requests : List (ℕ × ℕ × Data)} :
    Grows s { s with sessions := sessions, requests := requests } := ⟨fun _ hn => hn, fun _ hc _ => hc⟩

/-- Other sessions and requests, that are good as well. -/
theorem Guarded.rest {sessions : List (ℕ × Data)} {requests : List (ℕ × ℕ × Data)} (h : Guarded required s)
    (hsessions : Entries.Keyed sessions) (hrequests : Entries.Keyed requests)
    (hgood : ∀ k d, Entries.get k sessions = some d → Good required s d)
    (hcopies : ∀ i c, Entries.get i requests = some c → Good required s c.2) :
    Guarded required { s with sessions := sessions, requests := requests } where
  sessionsKeyed := hsessions
  requestsKeyed := hrequests
  challengesKeyed := h.challengesKeyed
  sessions k d hd := (hgood k d hd).mono grows_rest
  requests i k d hd := (hcopies i (k, d) hd).mono grows_rest
  passcodes := h.passcodes

theorem Guarded.copies (h : Guarded required s) (i : ℕ) (c : ℕ × Data) (hc : Entries.get i s.requests = some c) :
    Good required s c.2 := h.requests i c.1 c.2 hc

theorem Guarded.setRequest (h : Guarded required s) (hd : Good required s d) : Guarded required (s.setRequest i k d) :=
  h.rest h.sessionsKeyed h.requestsKeyed.put h.sessions <| Entries.forall_put h.requestsKeyed h.copies fun c hc => by
    cases hc
    exact hd

theorem Guarded.dropRequest (h : Guarded required s) (i : ℕ) :
    Guarded required { s with requests := Entries.put i none s.requests } :=
  h.rest h.sessionsKeyed h.requestsKeyed.put h.sessions <| Entries.forall_put h.requestsKeyed h.copies fun c hc => by cases hc

theorem Guarded.setSession (h : Guarded required s) (hd : Good required s d) (k : ℕ) :
    Guarded required { s with sessions := Entries.put k (some d) s.sessions } :=
  h.rest h.sessionsKeyed.put h.requestsKeyed (Entries.forall_put h.sessionsKeyed h.sessions fun d' hd' => by
    cases hd'
    exact hd) h.copies

theorem Guarded.dropSession (h : Guarded required s) (k : ℕ) :
    Guarded required { s with sessions := Entries.put k none s.sessions } :=
  h.rest h.sessionsKeyed.put h.requestsKeyed (Entries.forall_put h.sessionsKeyed h.sessions fun d hd => by cases hd) h.copies

theorem Guarded.cycle (h : Guarded required s) (key k : ℕ) (hd : Good required s d) : Guarded required (s.cycle key k d) :=
  (h.dropSession key).setSession (hd.mono grows_rest) k

theorem grows_signIn (n : SignIn) : Grows s { s with signIns := n :: s.signIns } :=
  ⟨fun _ hn => List.mem_cons_of_mem _ hn, fun _ hc _ => hc⟩

theorem Guarded.signIn {n : SignIn} (h : Guarded required s)
    (hn : n.method.isOtp = true → n.registered = true ∨ s.Passed n) :
    Guarded required { s with signIns := n :: s.signIns } where
  sessionsKeyed := h.sessionsKeyed
  requestsKeyed := h.requestsKeyed
  challengesKeyed := h.challengesKeyed
  sessions k d hd := (h.sessions k d hd).mono (grows_signIn n)
  requests i k d hd := (h.requests i k d hd).mono (grows_signIn n)
  passcodes m hm hotp := by
    rcases List.mem_cons.mp hm with rfl | hm
    · exact (hn hotp).imp id (grows_signIn m).passed
    · exact (h.passcodes m hm hotp).imp id (grows_signIn n).passed

/-- No passcode that was answered is written again. -/
theorem grows_setChallenge {c : ℕ} (row : Challenge) (h : Guarded required s)
    (hc : ∀ old, Entries.get c s.challenges = some old → old.consumedAt = none) : Grows s (s.setChallenge c row) where
  signIns _ hn := hn
  challenges x hx hconsumed := by
    refine Entries.mem_put.mpr (Or.inr ⟨hx, ?_⟩)
    rintro rfl
    rw [hc x.2 (h.challengesKeyed.get_eq hx)] at hconsumed
    cases hconsumed

theorem Guarded.setChallenge {c : ℕ} (row : Challenge) (h : Guarded required s)
    (hc : ∀ old, Entries.get c s.challenges = some old → old.consumedAt = none) : Guarded required (s.setChallenge c row) where
  sessionsKeyed := h.sessionsKeyed
  requestsKeyed := h.requestsKeyed
  challengesKeyed := h.challengesKeyed.put
  sessions k d hd := (h.sessions k d hd).mono (grows_setChallenge row h hc)
  requests i k d hd := (h.requests i k d hd).mono (grows_setChallenge row h hc)
  passcodes n hn hotp := (h.passcodes n hn hotp).imp id (grows_setChallenge row h hc).passed

theorem Guarded.startOtp {c : Option ℕ} {purpose : Purpose} (h : Guarded required s) (hc : ∀ x ∈ c, s.isFresh x = true) :
    Guarded required (s.startOtp c purpose voter) := by
  unfold State.startOtp
  cases c with
  | none => exact h
  | some c =>
    refine h.setChallenge _ fun old hold => ?_
    have hfresh := hc c rfl
    unfold State.isFresh at hfresh
    rw [hold] at hfresh
    cases hfresh

theorem Guarded.primaryAuth {issued : Option ℕ} {channel : Channel} (h : Guarded required s) (hd : Good required s d)
    (hpassed : method.isOtp = true → s.Passed ⟨event, voter, method, s.clock, false⟩) :
    Guarded required (s.primaryAuth required i key event voter method k issued channel d) := by
  have hsigned := (h.cycle key k hd).signIn (n := ⟨event, voter, method, s.clock, false⟩)
    fun hotp => Or.inr (hpassed hotp)
  have hgood : Good required { s.cycle key k d with signIns := ⟨event, voter, method, s.clock, false⟩ :: s.signIns } d :=
    hd.mono ⟨fun _ hn => List.mem_cons_of_mem _ hn, fun _ hc _ => hc⟩
  unfold State.primaryAuth
  dsimp only
  have hset := hsigned.setRequest (i := i) (k := k)
    (hgood.afterPrimaryAuth (issued.filter s.isFresh) channel (List.mem_cons_self ..))
  split
  · refine hset.startOtp fun x hx => ?_
    exact (Option.filter_eq_some_iff.mp hx).2
  · exact hset

theorem Guarded.accept {p : Pending} (h : Guarded required s) (hd : Good required s d) (hp : d.pending = some p)
    (hvoter : p.voter = some voter) (hfound : s.found p.challenge p.purpose voter = true) :
    Guarded required (s.accept required i key p.event voter k p d) := by
  have hold : ∀ old, Entries.get p.challenge s.challenges = some old → old.consumedAt = none := by
    intro old hget
    unfold State.found at hfound
    rw [hget, Option.any_some] at hfound
    simp only [Bool.and_eq_true, Option.isNone_iff_eq_none] at hfound
    exact hfound.2
  have hset := h.setChallenge ⟨p.purpose, voter, some s.clock⟩ hold
  have hgood := hd.mono (grows_setChallenge ⟨p.purpose, voter, some s.clock⟩ h hold)
  have hrow : (p.challenge, ⟨p.purpose, voter, some s.clock⟩) ∈
      (s.setChallenge p.challenge ⟨p.purpose, voter, some s.clock⟩).challenges :=
    Entries.mem_put.mpr (Or.inl ⟨rfl, rfl⟩)
  unfold State.accept
  dsimp only
  split
  · rename_i h2fa
    exact hset.setRequest (hgood.markSecondFactor hp h2fa hvoter ⟨_, hrow, h2fa, rfl, rfl⟩ ⟨_, hrow, h2fa, rfl⟩)
  · rename_i hlogin
    refine hset.primaryAuth hgood.dropPending fun _ => ⟨_, hrow, ?_, rfl, rfl⟩
    rcases hpurpose : p.purpose with _ | _
    · rfl
    · exact absurd hpurpose hlogin

theorem Guarded.step (h : Guarded required s) (x : Step) : Guarded required (step required x s) := by
  unfold SecondFactor.step
  cases x with
  | «open» i k =>
    refine h.setRequest ?_
    rcases hd : Entries.get k s.sessions with _ | d
    · exact Good.empty
    · exact h.sessions k d hd
  | signIn i event voter credential k issued channel =>
    dsimp only
    rcases hr : Entries.get i s.requests with _ | ⟨key, d⟩
    · exact h
    · exact h.primaryAuth (h.requests i key d hr) fun hotp => by cases credential <;> cases hotp
  | startOtp i event voter c channel =>
    dsimp only
    rcases hr : Entries.get i s.requests with _ | ⟨key, d⟩
    · exact h
    · have hset := h.setRequest (i := i) (k := key)
        ((h.requests i key d hr).setPending (p := ⟨event, voter, c, .VOTER_LOGIN, channel⟩) fun hp => by cases hp)
      cases voter with
      | none => exact hset
      | some voter => exact hset.startOtp fun x hx => (Option.filter_eq_some_iff.mp hx).2
  | resend i event c =>
    dsimp only
    rcases hr : Entries.get i s.requests with _ | ⟨key, d⟩
    · exact h
    · have hgood := h.requests i key d hr
      dsimp only
      rcases hp : d.pending with _ | p
      · exact h
      · dsimp only
        rcases hvoter : p.voter with _ | voter
        · exact h
        · dsimp only
          split
          · rename_i hok
            simp only [Bool.and_eq_true] at hok
            refine (h.setRequest (hgood.setPending fun h2fa => ?_)).startOtp fun x hx => ?_
            · -- the same voter is sent another code
              exact ⟨(hgood.awaits p hp h2fa).needed, fun st hst hnot hotp =>
                hvoter ▸ (hgood.awaits p hp h2fa).voter st hst hnot hotp⟩
            · cases hx
              exact hok.2
          · exact h
  | otp i event right k =>
    dsimp only
    rcases hr : Entries.get i s.requests with _ | ⟨key, d⟩
    · exact h
    · dsimp only
      rcases hp : d.pending with _ | p
      · exact h
      · dsimp only
        rcases hvoter : p.voter with _ | voter
        · exact h
        · dsimp only
          split
          · rename_i hok
            simp only [Bool.and_eq_true, decide_eq_true_eq] at hok
            obtain ⟨⟨rfl, -⟩, hfound⟩ := hok
            exact h.accept (h.requests i key d hr) hp hvoter hfound
          · exact h
  | register i event voter k =>
    dsimp only
    rcases hr : Entries.get i s.requests with _ | ⟨key, d⟩
    · exact h
    · have hgood := h.requests i key d hr
      have hsigned := (h.cycle key k hgood).signIn
        (n := ⟨event, voter, .EMAIL_OTP, s.clock, true⟩) fun _ => Or.inl rfl
      refine hsigned.setRequest (Good.put (hgood.mono ?_) (backed_new (List.mem_cons_self ..) fun _ => rfl) ?_)
      · exact ⟨fun _ hn => List.mem_cons_of_mem _ hn, fun _ hc _ => hc⟩
      · intro _ hnot
        cases hnot
  | logout i event =>
    dsimp only
    rcases hr : Entries.get i s.requests with _ | ⟨key, d⟩
    · exact h
    · exact h.setRequest ((h.requests i key d hr).logoutVoter event)
  | renew i k flushed =>
    dsimp only
    rcases hr : Entries.get i s.requests with _ | ⟨key, d⟩
    · exact h
    · have hgood : Good required s (if flushed then {} else d) := by
        split
        · exact Good.empty
        · exact h.requests i key d hr
      exact (h.cycle key k hgood).setRequest (hgood.mono grows_rest)
  | close i saves =>
    dsimp only
    rcases hr : Entries.get i s.requests with _ | ⟨key, d⟩
    · exact h
    · have hgood := h.requests i key d hr
      cases saves with
      | false => exact h.dropRequest i
      | true => exact (h.dropRequest i).setSession (hgood.mono grows_rest) key
  | lose k => exact h.dropSession k

/-! ### Voters that are let through -/

theorem requireVoter_some {onRoll : ℕ → Bool} {now : Time} (h : requireVoter required onRoll event now d = some voter) :
    ∃ st, Entries.get event d.voters = some st ∧ now ≤ (st.signedAt + SESSION_TTL_SECONDS) * MICROSECONDS ∧
      needsSecondFactor required event st = false ∧ st.voter = voter := by
  unfold requireVoter currentVoter at h
  obtain ⟨st, hst, hout⟩ := Option.bind_eq_some_iff.mp h
  rw [Option.filter_eq_some_iff, Bool.and_eq_true, decide_eq_true_eq] at hst
  split at hout
  · cases hout
  · rename_i hneeds
    exact ⟨st, hst.1, hst.2.1, Bool.not_eq_true _ ▸ hneeds, Option.some.inj hout⟩

/-- A voter signs in with a code and answers the second factor, after someone else has
signed in and waited for theirs. -/
def codeThenPasscode : List (Time × Step) :=
  [(0, .open 0 1), (1, .signIn 0 4 8 .CODE 2 (some 50) .SMS), (2, .close 0 true), (3, .open 1 2),
    (4, .signIn 1 4 9 .CODE 3 (some 51) .EMAIL), (5, .close 1 true), (6, .open 2 3), (7, .otp 2 4 true 4)]

/-- What the last request has of its session. -/
def answered : Data := { voters := [(4, ⟨9, .CODE, true, 0⟩)] }

end SecondFactor
end FlexyVotes
