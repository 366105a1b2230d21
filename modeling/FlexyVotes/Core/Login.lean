/-
# Signing in

A staff login takes several requests: the password or an identity from a
provider, and often a second factor after it. Failed attempts of any of them are
counted, and lock the account for a while when there are too many. Whether it is
locked is asked once, before the password is looked at. A lock that comes later
does not stop a login that is under way, and a provider's identity is not asked
for it at all.

The requests interleave: each step below is what a request does between two
accesses to the account's row of `UserSecurity`.

Key definitions: `registered`, `beginLogin`, `Step`, `State.UnderWay`, `Orderly`,
`State.Unlocked`.
Key theorems: `Guarded.step`, `logins_unlocked`.
-/
import FlexyVotes.Core.Otp
import FlexyVotes.Lib.Steps

namespace FlexyVotes
namespace Login

/-! ### Accounts, sessions and what is known of them -/

/-- `LOGIN_MAX_FAILURES`, `LOGIN_LOCKOUT_SECONDS` and
`FRAUD_CHALLENGE_THRESHOLD`. -/
structure Settings where
  maxFailures : ℕ := 5
  lockoutSeconds : ℕ := 900
  challengeThreshold : ℕ := 61

/-- What others compute: password hashing, `pyotp` and `webauthn`. -/
structure Primitives where
  /-- A raw password against the stored one. -/
  checkPassword : String → String → Bool
  /-- `TOTP(secret).at`. -/
  totpAt : String → ℕ → String
  /-- The id of a credential, if it can be parsed. -/
  credentialId : String → Option String
  /-- The new count of signatures of a credential that answers the challenge with
  the stored key and count. -/
  verifyCredential : String → String → String → ℕ → Option ℕ

/-- `User`. -/
structure AccountRow where
  username : String
  password : String
  email : String := ""
  isActive : Bool := true

/-- `UserSecurity`. -/
structure SecurityRow where
  totpSecret : Option String := none
  totpConfirmed : Bool := false
  recoveryCodes : List String := []
  failedLoginCount : ℕ := 0
  lockedUntil : Option Time := none
  lastFailedAt : Option Time := none

/-- `UserSecurity.is_locked`. -/
def SecurityRow.isLocked (r : SecurityRow) (now : Time) : Bool := r.lockedUntil.any (now < ·)

/-- `WebAuthnCredential`. -/
structure PasskeyRow where
  credentialId : String
  publicKey : String
  signCount : ℕ

/-- `session['fv_mfa_pending']`, its moment in seconds. -/
structure Pending where
  user : ℕ
  since : ℕ
  methods : List String
  reasons : List String

structure Session where
  user : Option ℕ := none
  pending : Option Pending := none
  /-- `session['fv_stepup_challenge']`. -/
  stepup : Option String := none
  /-- `session['fv_webauthn_auth']`. -/
  webauthn : Option String := none

def PENDING_TTL : ℕ := 300

def MICROSECONDS : ℕ := 1000000

/-- The pending login can still be completed. -/
def Pending.isFresh (p : Pending) (now : Time) : Bool := now ≤ (p.since + PENDING_TTL) * MICROSECONDS

/-- Where a request is between two of its steps. -/
inductive Flight
  /-- The account of the name was not locked; the password comes next. -/
  | checked (username password : String)
  /-- The password, or a provider, says who it is. -/
  | verified (user : ℕ)
  /-- The method was accepted, and no other is asked for. -/
  | proven (user : ℕ) (method : String)
  /-- The attempt failed; the row was read to count it. -/
  | failing (user : ℕ) (row : SecurityRow)

/-- A login that was completed, with the lock of the account at that moment. -/
structure Completed where
  user : ℕ
  method : String
  moment : Time
  lockedUntil : Option Time
deriving DecidableEq

structure State where
  clock : Time := 0
  accounts : List (ℕ × AccountRow)
  security : ℕ → Option SecurityRow := fun _ => none
  passkeys : ℕ → List PasskeyRow := fun _ => []
  challenges : String → Option OtpRow := fun _ => none
  devices : ℕ → List String := fun _ => []
  /-- The `totp-used` entries of the cache: user, step and expiry. -/
  usedTotp : List (ℕ × ℕ × Time) := []
  sessions : ℕ → Session := fun _ => {}
  /-- The requests under way, each with its session. -/
  flights : ℕ → Option (ℕ × Flight) := fun _ => none
  logins : List Completed := []

namespace State

variable (s : State)

def setSession (c : ℕ) (session : Session) : State :=
  { s with sessions := fun x => if x = c then session else s.sessions x }

def setSecurity (u : ℕ) (row : SecurityRow) : State :=
  { s with security := fun x => if x = u then some row else s.security x }

def setFlight (i : ℕ) (flight : Option (ℕ × Flight)) : State :=
  { s with flights := fun x => if x = i then flight else s.flights x }

/-- `security_for`. -/
def securityFor (u : ℕ) : SecurityRow := (s.security u).getD {}

/-- `User.objects.filter(username=…).first()`. -/
def userNamed (username : String) : Option (ℕ × AccountRow) := s.accounts.find? fun a => a.2.username = username

def account (u : ℕ) : Option AccountRow := (s.accounts.find? fun a => a.1 = u).map (·.2)

/-- Until when the account is locked, if it ever was. -/
def lockOf (u : ℕ) : Option Time := (s.security u).bind (·.lockedUntil)

/-- The user's row is locked now. -/
def Locked (u : ℕ) : Prop := (s.lockOf u).any (s.clock < ·) = true

instance (u : ℕ) : Decidable (s.Locked u) := by
  unfold Locked
  infer_instance

/-- `is_locked`. -/
def isLocked (username : String) : Bool := (s.userNamed username).any fun a => s.Locked a.1

end State

variable (S : Settings) (P : Primitives) (E : Env)

/-! ### Failures -/

/-- `register_failure`, from the row that was read: what it saves. -/
def registered (row : SecurityRow) (now : Time) : SecurityRow :=
  let count := row.failedLoginCount + 1
  let row := { row with failedLoginCount := count, lastFailedAt := some now }
  if S.maxFailures ≤ count then
    let rounds := count / S.maxFailures
    let seconds := min (S.lockoutSeconds * 2 ^ (rounds - 1)) (24 * 3600)
    { row with lockedUntil := some (now + seconds * MICROSECONDS) }
  else row

/-- A failed attempt under the name: its row is read, if there is an account. -/
def fail (i c : ℕ) (username : String) (s : State) : State :=
  match s.userNamed username with
  | none => s.setFlight i none
  | some a => s.setFlight i (some (c, .failing a.1 (s.securityFor a.1)))

/-! ### Second factors -/

/-- `mfa_methods`. -/
def mfaMethods (u : ℕ) (s : State) : List String :=
  (if (s.security u).any fun r => r.totpSecret.any (· ≠ "") && r.totpConfirmed then ["totp"] else []) ++
  (if s.passkeys u ≠ [] then ["passkey"] else []) ++
  (if (s.security u).any fun r => r.recoveryCodes ≠ [] then ["recovery"] else [])

/-- The first of the time steps whose code it is. -/
def totpStep (secret code : String) (now : Time) : Option ℕ :=
  let step := now / MICROSECONDS / 30
  [step - 1, step, step + 1].find? fun t => P.totpAt secret t = code

/-- `verify_totp`: a code counts once. -/
def verifyTotp (u : ℕ) (code : String) (s : State) : Bool × State :=
  let secret := (s.securityFor u).totpSecret.getD ""
  let code := Otp.removeSpaces (E.strip code)
  if secret = "" ∨ code = "" ∨ ¬ code.toList.all E.isDigit then (false, s)
  else
    match totpStep P secret code s.clock with
    | none => (false, s)
    | some t =>
      if s.usedTotp.any fun x => x.1 = u && x.2.1 = t && s.clock < x.2.2 then (false, s)
      else (true, { s with usedTotp := (u, t, s.clock + 120 * MICROSECONDS) :: s.usedTotp })

/-- `use_recovery_code`. -/
def useRecoveryCode (u : ℕ) (code : String) (s : State) : Bool × State :=
  let digest := E.keyedHash "recovery" (E.upper (E.strip code))
  let row := s.securityFor u
  if digest ∈ row.recoveryCodes then
    (true, s.setSecurity u { row with recoveryCodes := row.recoveryCodes.filter (· ≠ digest) })
  else (false, s)

/-- `otp.verify` of the session's step-up challenge. -/
def verifyStepup (challenge : Option String) (u : ℕ) (code : String) (s : State) : Bool × State :=
  match challenge with
  | none => (false, s)
  | some id =>
    match s.challenges id with
    | none => (false, s)
    | some row =>
      if row.purpose ≠ "STAFF_STEPUP" ∨ row.subjectType ≠ "user" ∨ row.subjectId ≠ toString u then (false, s)
      else if row.consumedAt.isSome ∨ row.expiresAt ≤ s.clock ∨ row.maxAttempts ≤ row.attempts then (false, s)
      else
        let ok : Bool := Otp.codeHash E id (Otp.removeSpaces (E.strip code)) = row.codeHash
        (ok, { s with challenges := fun x => if x = id then some (Otp.guessed row ok s.clock) else s.challenges x })

/-- The factor that the form of `mfa` names, if the pending login allows it. -/
def secondFactor (pending : Pending) (session : Session) (method code : String) (s : State) : Bool × State :=
  if method = "totp" ∧ "totp" ∈ pending.methods then verifyTotp P E pending.user code s
  else if method = "recovery" ∧ "recovery" ∈ pending.methods then useRecoveryCode E pending.user code s
  else if method = "email" ∧ "email" ∈ pending.methods then verifyStepup E session.stepup pending.user code s
  else (false, s)

/-- `passkey_authenticate`: the session's challenge is used up. -/
def passkeyAuthenticate (c u : ℕ) (credential : String) (s : State) : Bool × State :=
  match (s.sessions c).webauthn with
  | none => (false, s)
  | some challenge =>
    let s := s.setSession c { s.sessions c with webauthn := none }
    match (P.credentialId credential).bind fun id => (s.passkeys u).find? fun k => k.credentialId = id with
    | none => (false, s)
    | some stored =>
      match P.verifyCredential credential challenge stored.publicKey stored.signCount with
      | none => (false, s)
      | some count =>
        (true, { s with passkeys := fun x => if x = u then
          (s.passkeys u).map fun k => if k.credentialId = stored.credentialId then { k with signCount := count } else k
          else s.passkeys x })

/-! ### The login -/

/-- What a request brings: its device, the score `assess` gives it, and the
challenge `otp.issue` makes for it, if it does not raise. -/
structure Visit where
  device : String := ""
  risk : ℕ := 0
  issued : Option (String × OtpRow) := none

/-- `suspicious_reasons`. -/
def suspiciousReasons (u : ℕ) (v : Visit) (s : State) : List String :=
  (if s.devices u ≠ [] ∧ v.device ∉ s.devices u then ["new device"] else []) ++
  (if (s.security u).any fun r => 3 ≤ r.failedLoginCount then ["recent failed attempts"] else []) ++
  (if S.challengeThreshold ≤ v.risk then ["high-risk connection"] else [])

/-- `complete_login`, with what the signal of a login does: the failures are
forgotten, and the lock. -/
def completeLogin (i c u : ℕ) (method device : String) (s : State) : State :=
  let s' := (s.setSession c { s.sessions c with user := some u, pending := none, stepup := none }).setSecurity u
    { s.securityFor u with failedLoginCount := 0, lockedUntil := none }
  { s'.setFlight i none with
    devices := fun x => if x = u then (if device ∈ s.devices u then s.devices u else device :: s.devices u)
      else s.devices x
    logins := ⟨u, method, s.clock, s.lockOf u⟩ :: s.logins }

/-- The login waits for a second factor. -/
def await (i c u : ℕ) (methods reasons : List String) (s : State) : State :=
  (s.setSession c { s.sessions c with pending := some ⟨u, s.clock / MICROSECONDS, methods, reasons⟩ }).setFlight i none

/-- `begin_login`, up to `complete_login` where no other factor is asked for. -/
def beginLogin (i c u : ℕ) (v : Visit) (s : State) : State :=
  let methods := mfaMethods u s
  let reasons := suspiciousReasons S u v s
  if methods = [] then
    if reasons = [] ∨ ((s.account u).map (·.email)).getD "" = "" then s.setFlight i (some (c, .proven u "password"))
    else
      match v.issued with
      | none => s.setFlight i (some (c, .proven u "password"))
      | some (id, row) =>
        let s := { s with challenges := fun x => if x = id then some row else s.challenges x }
        await i c u ["email"] reasons (s.setSession c { s.sessions c with stepup := some id })
  else await i c u methods reasons s

/-- `authenticate`: an active account with the name and the password. -/
def authenticate (username password : String) (s : State) : Option ℕ :=
  ((s.userNamed username).filter fun a => P.checkPassword password a.2.password && a.2.isActive).map (·.1)

/-- `pending_user`. -/
def pendingUser (c : ℕ) (s : State) : Option (Pending × AccountRow) := do
  let pending ← (s.sessions c).pending.filter (·.isFresh s.clock)
  let account ← (s.account pending.user).filter (·.isActive)
  return (pending, account)

/-- The e-mail address of an identity, and whether the provider verified it. -/
structure Claims where
  email : String
  emailVerified : Bool

/-- The account `sso_callback` finds for an identity. -/
def ssoUser (claims : Claims) (s : State) : Option ℕ :=
  let email := E.strip claims.email
  if email ≠ "" ∧ claims.emailVerified = true then
    (s.accounts.find? fun a => E.lower a.2.email = E.lower email && a.2.isActive).map (·.1)
  else none

/-- One step of a request; `i` is the request, `c` the session it comes with. -/
inductive Step
  /-- `login_view`, up to `is_locked`. -/
  | check (i c : ℕ) (username password : String)
  /-- `authenticate`, and the failure of it. -/
  | authenticate (i : ℕ)
  /-- `begin_login`, up to `complete_login`. -/
  | begin (i : ℕ) (v : Visit)
  /-- `sso_callback`, up to `begin_login`, with what the provider claims. -/
  | sso (i c : ℕ) (claims : Claims)
  /-- `mfa`, up to the second factor. -/
  | mfa (i c : ℕ) (method code : String)
  /-- `mfa_passkey_options`. -/
  | passkeyOptions (c : ℕ) (challenge : String)
  /-- `mfa_passkey_verify`, up to the assertion. -/
  | passkeyVerify (i c : ℕ) (credential : String)
  /-- `complete_login`. -/
  | complete (i : ℕ) (device : String)
  /-- `register_failure` saves the row. -/
  | count (i : ℕ)

/-- What a step does at the moment of the state; nothing where the request is
not there. -/
def step : Step → State → State
  | .check i c username password, s =>
    if s.flights i ≠ none ∨ (s.sessions c).user.isSome ∨ s.isLocked username then s
    else s.setFlight i (some (c, .checked username password))
  | .authenticate i, s =>
    match s.flights i with
    | some (c, .checked username password) =>
      match authenticate P username password s with
      | some u => s.setFlight i (some (c, .verified u))
      | none => fail i c username s
    | _ => s
  | .begin i v, s =>
    match s.flights i with
    | some (c, .verified u) => beginLogin S i c u v s
    | _ => s
  | .sso i c claims, s =>
    if s.flights i ≠ none then s
    else
      match ssoUser E claims s with
      | some u => s.setFlight i (some (c, .verified u))
      | none => s
  | .mfa i c method code, s =>
    if s.flights i ≠ none then s
    else
      match pendingUser c s with
      | none => s
      | some (pending, account) =>
        match secondFactor P E pending (s.sessions c) method code s with
        | (true, s') => s'.setFlight i (some (c, .proven pending.user method))
        | (false, s') => fail i c account.username s'
  | .passkeyOptions c challenge, s =>
    match pendingUser c s with
    | some (pending, _) =>
      if "passkey" ∈ pending.methods then s.setSession c { s.sessions c with webauthn := some challenge } else s
    | none => s
  | .passkeyVerify i c credential, s =>
    if s.flights i ≠ none then s
    else
      match pendingUser c s with
      | none => s
      | some (pending, account) =>
        match passkeyAuthenticate P c pending.user credential s with
        | (true, s') => s'.setFlight i (some (c, .proven pending.user "passkey"))
        | (false, s') => fail i c account.username s'
  | .complete i device, s =>
    match s.flights i with
    | some (c, .proven u method) => completeLogin i c u method device s
    | _ => s
  | .count i, s =>
    match s.flights i with
    | some (_, .failing u row) => (s.setSecurity u (registered S row s.clock)).setFlight i none
    | _ => s

/-- The state at a later moment. -/
def State.upTo (s : State) (now : Time) : State := { s with clock := now }

/-- A step at its moment. -/
def tick (x : Time × Step) (s : State) : State := step S P E x.2 (s.upTo x.1)

/-- The moments of the steps follow one another, and a step meets `C` in the
state it is taken in. -/
def Timely (C : Step → State → Prop) (x : Time × Step) (s : State) : Prop := s.clock ≤ x.1 ∧ C x.2 (s.upTo x.1)

instance {C : Step → State → Prop} [∀ x s, Decidable (C x s)] (x : Time × Step) (s : State) :
    Decidable (Timely C x s) := inferInstanceAs (Decidable (_ ∧ _))

/-! ### What is under way -/

variable {S : Settings} {P : Primitives} {E : Env}

/-- The request is about to sign the user in. -/
def Flight.For (P : Primitives) (s : State) (u : ℕ) : Flight → Prop
  | .checked username password => authenticate P username password s = some u
  | .verified u' => u' = u
  | .proven u' _ => u' = u
  | .failing _ _ => False

/-- A login of the user is under way: a request is about to sign the user in, or
a session waits for the second factor. -/
def State.UnderWay (P : Primitives) (s : State) (u : ℕ) : Prop :=
  (∃ i c f, s.flights i = some (c, f) ∧ f.For P s u) ∨
    ∃ c p, (s.sessions c).pending = some p ∧ p.user = u ∧ p.isFresh s.clock = true

/-- A failure that locks an account is counted when no login of it is under way,
and a provider's identity comes when its account is not locked. -/
def Orderly (S : Settings) (P : Primitives) (E : Env) : Step → State → Prop
  | .count i, s =>
    ∀ c u row, s.flights i = some (c, .failing u row) → (registered S row s.clock).isLocked s.clock = true →
      ¬ s.UnderWay P u
  | .sso _ _ claims, s => ∀ u, ssoUser E claims s = some u → ¬ s.Locked u
  | _, _ => True

/-- No login was completed while its account was locked. -/
def State.Unlocked (s : State) : Prop := ∀ l ∈ s.logins, ¬ l.lockedUntil.any (l.moment < ·) = true

/-- No account is locked while a login of it is under way, and none was when a
login of it was completed. -/
structure Guarded (P : Primitives) (s : State) : Prop where
  free : ∀ u, s.UnderWay P u → ¬ s.Locked u
  past : s.Unlocked

/-- Nothing that the lock depends on is changed. -/
structure Kept (s t : State) : Prop where
  clock : t.clock = s.clock
  accounts : t.accounts = s.accounts
  flights : t.flights = s.flights
  pending : ∀ c, (t.sessions c).pending = (s.sessions c).pending
  lock : ∀ u, t.lockOf u = s.lockOf u
  logins : t.logins = s.logins

theorem Kept.refl (s : State) : Kept s s := ⟨rfl, rfl, rfl, fun _ => rfl, fun _ => rfl, rfl⟩

theorem Kept.setSession {s : State} {c : ℕ} {session : Session} (h : session.pending = (s.sessions c).pending) :
    Kept s (s.setSession c session) := by
  refine ⟨rfl, rfl, rfl, fun c' => ?_, fun _ => rfl, rfl⟩
  unfold State.setSession
  dsimp only
  split
  · rename_i hc
    rw [hc, h]
  · rfl

theorem lockOf_setSecurity {s : State} {u v : ℕ} {row : SecurityRow} :
    (s.setSecurity u row).lockOf v = if v = u then row.lockedUntil else s.lockOf v := by
  unfold State.lockOf State.setSecurity
  by_cases h : v = u <;> simp [h]

theorem securityFor_lock (s : State) (u : ℕ) : (s.securityFor u).lockedUntil = s.lockOf u := by
  unfold State.securityFor State.lockOf
  cases s.security u <;> rfl

theorem authenticate_congr {s t : State} (h : t.accounts = s.accounts) (username password : String) :
    authenticate P username password t = authenticate P username password s := by
  unfold authenticate State.userNamed
  rw [h]

theorem Flight.For.congr {s t : State} {u : ℕ} {f : Flight} (h : t.accounts = s.accounts) (hf : f.For P t u) :
    f.For P s u := by
  cases f with
  | checked username password => exact (authenticate_congr h username password).symm.trans hf
  | verified u' => exact hf
  | proven u' method => exact hf
  | failing u' row => exact hf

theorem isFresh_antitone {p : Pending} {a b : Time} (h : a ≤ b) (hp : p.isFresh b = true) : p.isFresh a = true := by
  unfold Pending.isFresh at *
  simp only [decide_eq_true_eq] at *
  exact le_trans h hp

/-- What is under way later, by its parts. -/
theorem State.UnderWay.elim {s t : State} {u : ℕ} {X : Prop} (h : t.UnderWay P u) (ha : t.accounts = s.accounts)
    (hc : s.clock ≤ t.clock) (hf : ∀ i c f, t.flights i = some (c, f) → f.For P s u → X)
    (hp : ∀ c p, (t.sessions c).pending = some p → p.user = u → p.isFresh s.clock = true → X) : X := by
  rcases h with ⟨i, c, f, hi, hfor⟩ | ⟨c, p, hi, hu, hfresh⟩
  · exact hf i c f hi (hfor.congr ha)
  · exact hp c p hi hu (isFresh_antitone hc hfresh)

theorem State.UnderWay.of_flight {s : State} {u i c : ℕ} {f : Flight} (h : s.flights i = some (c, f)) (hf : f.For P s u) :
    s.UnderWay P u := Or.inl ⟨i, c, f, h, hf⟩

theorem State.UnderWay.of_pending {s : State} {c : ℕ} {p : Pending} (h : (s.sessions c).pending = some p)
    (hp : p.isFresh s.clock = true) : s.UnderWay P p.user := Or.inr ⟨c, p, h, rfl, hp⟩

theorem Kept.underWay {s t : State} {u : ℕ} (h : Kept s t) (hu : t.UnderWay P u) : s.UnderWay P u :=
  hu.elim h.accounts h.clock.ge (fun _ _ _ hi hf => .of_flight (h.flights ▸ hi) hf)
    fun c _ hi he hp => he ▸ .of_pending ((h.pending c).symm.trans hi) hp

theorem Kept.locked {s t : State} {u : ℕ} (h : Kept s t) : t.Locked u ↔ s.Locked u := by
  unfold State.Locked
  rw [h.lock, h.clock]

theorem Kept.guarded {s t : State} (h : Kept s t) (hs : Guarded P s) : Guarded P t where
  free u hu hl := hs.free u (h.underWay hu) (h.locked.1 hl)
  past l hl := hs.past l (h.logins ▸ hl)

/-! ### The second factors keep it -/

theorem verifyTotp_kept {u : ℕ} {code : String} {s : State} : Kept s (verifyTotp P E u code s).2 := by
  unfold verifyTotp
  dsimp only
  split
  · exact Kept.refl s
  · split
    · exact Kept.refl s
    · split
      · exact Kept.refl s
      · exact ⟨rfl, rfl, rfl, fun _ => rfl, fun _ => rfl, rfl⟩

theorem useRecoveryCode_kept {u : ℕ} {code : String} {s : State} : Kept s (useRecoveryCode E u code s).2 := by
  unfold useRecoveryCode
  dsimp only
  split
  · refine ⟨rfl, rfl, rfl, fun _ => rfl, fun v => ?_, rfl⟩
    rw [lockOf_setSecurity]
    by_cases h : v = u
    · rw [if_pos h, securityFor_lock, h]
    · rw [if_neg h]
  · exact Kept.refl s

theorem verifyStepup_kept {challenge : Option String} {u : ℕ} {code : String} {s : State} :
    Kept s (verifyStepup E challenge u code s).2 := by
  unfold verifyStepup
  split
  · exact Kept.refl s
  · split
    · exact Kept.refl s
    · split
      · exact Kept.refl s
      · split
        · exact Kept.refl s
        · exact ⟨rfl, rfl, rfl, fun _ => rfl, fun _ => rfl, rfl⟩

theorem secondFactor_kept {pending : Pending} {session : Session} {method code : String} {s : State} :
    Kept s (secondFactor P E pending session method code s).2 := by
  unfold secondFactor
  split
  · exact verifyTotp_kept
  · split
    · exact useRecoveryCode_kept
    · split
      · exact verifyStepup_kept
      · exact Kept.refl s

theorem passkeyAuthenticate_kept {c u : ℕ} {credential : String} {s : State} :
    Kept s (passkeyAuthenticate P c u credential s).2 := by
  unfold passkeyAuthenticate
  split
  · exact Kept.refl s
  · have h : Kept s (s.setSession c { s.sessions c with webauthn := none }) := Kept.setSession rfl
    dsimp only
    split
    · exact h
    · split
      · exact h
      · exact ⟨h.clock, h.accounts, h.flights, h.pending, h.lock, h.logins⟩

/-! ### Every step keeps the accounts guarded -/

theorem Guarded.upTo {s : State} {now : Time} (h : Guarded P s) (hc : s.clock ≤ now) : Guarded P (s.upTo now) where
  free u hu hl := by
    have hu : s.UnderWay P u := hu.elim (s := s) rfl hc (fun _ _ _ hi hf => .of_flight hi hf)
      fun _ _ hi he hp => he ▸ .of_pending hi hp
    refine h.free u hu ?_
    unfold State.Locked at *
    have hlock : (s.upTo now).lockOf u = s.lockOf u := rfl
    rw [hlock] at hl
    cases hs : s.lockOf u with
    | none => rw [hs] at hl; exact absurd hl (by simp)
    | some until' =>
      rw [hs] at hl
      have hlt : now < until' := of_decide_eq_true hl
      exact decide_eq_true (lt_of_le_of_lt hc hlt)
  past := h.past

theorem Guarded.setFlight {s : State} {i : ℕ} {o : Option (ℕ × Flight)} (h : Guarded P s)
    (ho : ∀ c f u, o = some (c, f) → f.For P s u → ¬ s.Locked u) : Guarded P (s.setFlight i o) where
  free u hu hl := by
    have hl : s.Locked u := hl
    refine hu.elim (s := s) rfl le_rfl (fun j c f hj hf => ?_) fun c p hi he hp => ?_
    · unfold State.setFlight at hj
      dsimp only at hj
      split at hj
      · exact ho c f u hj hf hl
      · exact h.free u (.of_flight hj hf) hl
    · exact h.free u (he ▸ .of_pending hi hp) hl
  past := h.past

theorem Guarded.drop {s : State} {i : ℕ} (h : Guarded P s) : Guarded P (s.setFlight i none) :=
  h.setFlight fun _ _ _ h => by cases h

theorem Guarded.fail {s : State} {i c : ℕ} {username : String} (h : Guarded P s) :
    Guarded P (fail i c username s) := by
  unfold Login.fail
  split
  · exact h.drop
  · refine h.setFlight fun c' f u he hf => ?_
    cases he
    exact absurd hf (by simp [Flight.For])

theorem Guarded.setSecurity {s : State} {u : ℕ} {row : SecurityRow} (h : Guarded P s)
    (hr : row.isLocked s.clock = true → ¬ s.UnderWay P u) : Guarded P (s.setSecurity u row) where
  free v hv hl := by
    have hv : s.UnderWay P v :=
      hv.elim rfl le_rfl (fun _ _ _ => .of_flight) fun _ _ hi he hp => he ▸ .of_pending hi hp
    unfold State.Locked at hl
    rw [lockOf_setSecurity] at hl
    by_cases hvu : v = u
    · rw [if_pos hvu] at hl
      exact hr hl (hvu ▸ hv)
    · rw [if_neg hvu] at hl
      exact h.free v hv hl
  past := h.past

/-- A login that was under way is completed. -/
theorem Guarded.completeLogin {s : State} {i c u : ℕ} {method device : String} (h : Guarded P s)
    (hu : s.UnderWay P u) : Guarded P (completeLogin i c u method device s) where
  free v hv hl := by
    have hsub : s.UnderWay P v := by
      refine hv.elim rfl le_rfl (fun j c' f hj hf => ?_) fun c' p hp he hfresh => ?_
      · unfold Login.completeLogin State.setFlight at hj
        dsimp only at hj
        split at hj
        · cases hj
        · exact .of_flight hj hf
      · unfold Login.completeLogin State.setFlight State.setSecurity State.setSession at hp
        dsimp only at hp
        split at hp
        · cases hp
        · exact he ▸ .of_pending hp hfresh
    have hlock : (Login.completeLogin i c u method device s).lockOf v = if v = u then none else s.lockOf v :=
      lockOf_setSecurity
    unfold State.Locked at hl
    rw [hlock] at hl
    by_cases hvu : v = u
    · rw [if_pos hvu] at hl
      cases hl
    · rw [if_neg hvu] at hl
      exact h.free v hsub hl
  past l hl := by
    rcases List.mem_cons.1 hl with rfl | hl
    · exact h.free u hu
    · exact h.past l hl

theorem Guarded.await {s : State} {i c u : ℕ} {methods reasons : List String} (h : Guarded P s)
    (hu : ¬ s.Locked u) : Guarded P (await i c u methods reasons s) where
  free v hv hl := by
    have hl : s.Locked v := hl
    refine hv.elim (s := s) rfl le_rfl (fun j c' f hj hf => ?_) fun c' p hp he hfresh => ?_
    · unfold Login.await State.setFlight at hj
      dsimp only at hj
      split at hj
      · cases hj
      · exact h.free v (.of_flight hj hf) hl
    · unfold Login.await State.setFlight State.setSession at hp
      dsimp only at hp
      split at hp
      · have hpu : u = p.user := congrArg Pending.user (Option.some.inj hp)
        rw [← he, ← hpu] at hl
        exact hu hl
      · exact h.free v (he ▸ .of_pending hp hfresh) hl
  past := h.past

theorem Guarded.beginLogin {s : State} {i c u : ℕ} {v : Visit} (h : Guarded P s) (hu : ¬ s.Locked u) :
    Guarded P (beginLogin S i c u v s) := by
  have hproven : Guarded P (s.setFlight i (some (c, .proven u "password"))) := by
    refine h.setFlight fun c' f u' he hf => ?_
    cases he
    have hf : u = u' := hf
    exact hf ▸ hu
  unfold Login.beginLogin
  dsimp only
  split
  · split
    · exact hproven
    · split
      · exact hproven
      · rename_i id row _
        have hk : Guarded P { s with challenges := fun x => if x = id then some row else s.challenges x } :=
          Kept.guarded (s := s) ⟨rfl, rfl, rfl, fun _ => rfl, fun _ => rfl, rfl⟩ h
        refine Guarded.await (Kept.guarded (Kept.setSession ?_) hk) hu
        rfl
  · exact h.await hu

theorem userNamed_locked {s : State} {username password : String} {u : ℕ} (hl : s.isLocked username = false)
    (hu : authenticate P username password s = some u) : ¬ s.Locked u := by
  unfold authenticate at hu
  unfold State.isLocked at hl
  cases ha : s.userNamed username with
  | none => rw [ha] at hu; cases hu
  | some a =>
    rw [ha] at hu hl
    have he : a.1 = u := by
      rw [Option.filter_some] at hu
      split at hu
      · exact Option.some.inj hu
      · cases hu
    simpa [he] using hl

theorem pendingUser_underWay {s : State} {c : ℕ} {pending : Pending} {account : AccountRow}
    (h : pendingUser c s = some (pending, account)) : s.UnderWay P pending.user := by
  unfold pendingUser at h
  simp only [Option.bind_eq_bind, Option.bind_eq_some_iff, Option.filter_eq_some_iff] at h
  obtain ⟨p, ⟨hp, hfresh⟩, a, -, he⟩ := h
  cases he
  exact .of_pending hp hfresh

/-- A second factor that was accepted. -/
theorem Guarded.proven {s t : State} {i c u : ℕ} {method : String} (h : Guarded P s) (hk : Kept s t)
    (hu : s.UnderWay P u) : Guarded P (t.setFlight i (some (c, .proven u method))) := by
  refine (hk.guarded h).setFlight fun c' f u' he hf hl => ?_
  cases he
  have hf : u = u' := hf
  exact h.free u hu (hk.locked.1 (hf ▸ hl))

/-- **One step**: an orderly one keeps the accounts guarded. -/
theorem Guarded.step {s : State} (x : Step) (h : Guarded P s) (hx : Orderly S P E x s) :
    Guarded P (step S P E x s) := by
  cases x with
  | check i c username password =>
    simp only [Login.step]
    split
    · exact h
    · rename_i hn
      refine h.setFlight fun c' f u he hf => ?_
      cases he
      exact userNamed_locked (Bool.eq_false_of_not_eq_true fun hl => hn (Or.inr (Or.inr hl))) hf
  | authenticate i =>
    simp only [Login.step]
    split
    · rename_i c username password hi
      split
      · rename_i u hu
        refine h.setFlight fun c' f u' he hf => ?_
        cases he
        have hf : u = u' := hf
        exact hf ▸ h.free u (.of_flight hi hu)
      · exact h.fail
    · exact h
  | begin i v =>
    simp only [Login.step]
    split
    · rename_i c u hi
      exact h.beginLogin (h.free u (.of_flight hi rfl))
    · exact h
  | sso i c claims =>
    simp only [Login.step]
    split
    · exact h
    · split
      · rename_i u hu
        refine h.setFlight fun c' f u' he hf => ?_
        cases he
        have hf : u = u' := hf
        exact hf ▸ hx u hu
      · exact h
  | mfa i c method code =>
    simp only [Login.step]
    split
    · exact h
    · split
      · exact h
      · rename_i pending account hp
        have hk : Kept s (secondFactor P E pending (s.sessions c) method code s).2 := secondFactor_kept
        split
        · rename_i s' he
          rw [he] at hk
          exact h.proven hk (pendingUser_underWay hp)
        · rename_i s' he
          rw [he] at hk
          exact (hk.guarded h).fail
  | passkeyOptions c challenge =>
    simp only [Login.step]
    split
    · split
      · have hset : Kept s (s.setSession c { s.sessions c with webauthn := some challenge }) := Kept.setSession rfl
        exact hset.guarded h
      · exact h
    · exact h
  | passkeyVerify i c credential =>
    simp only [Login.step]
    split
    · exact h
    · split
      · exact h
      · rename_i pending account hp
        have hk : Kept s (passkeyAuthenticate P c pending.user credential s).2 := passkeyAuthenticate_kept
        split
        · rename_i s' he
          rw [he] at hk
          exact h.proven hk (pendingUser_underWay hp)
        · rename_i s' he
          rw [he] at hk
          exact (hk.guarded h).fail
  | complete i device =>
    simp only [Login.step]
    split
    · rename_i c u method hi
      exact h.completeLogin (.of_flight hi rfl)
    · exact h
  | count i =>
    simp only [Login.step]
    split
    · rename_i c u row hi
      exact (h.setSecurity fun hl => hx c u row hi hl).drop
    · exact h

/-- **A run** of orderly steps. -/
theorem Guarded.run {xs : List (Time × Step)} {s : State} (hs : Guarded P s)
    (h : Steps.Always (tick S P E) (Timely (Orderly S P E)) xs s) : Guarded P (Steps.run (tick S P E) xs s) :=
  Steps.Always.run (fun _ _ h hx => (h.upTo hx.1).step _ hx.2) hs h

/-- Nobody is signing in yet. -/
structure State.Begins (s : State) : Prop where
  flights : ∀ i, s.flights i = none
  pending : ∀ c, (s.sessions c).pending = none
  logins : s.logins = []

theorem State.Begins.guarded {s : State} (h : s.Begins) : Guarded P s where
  free u hu := by
    rcases hu with ⟨i, c, f, hi, -⟩ | ⟨c, p, hp, -⟩
    · rw [h.flights i] at hi
      cases hi
    · rw [h.pending c] at hp
      cases hp
  past l hl := by
    rw [h.logins] at hl
    cases hl

/-- **Logins and locks**: no login is completed while its account is locked, if
no account gets locked while a login of it is under way, and no provider's
identity is let in for an account that is. -/
theorem logins_unlocked (S : Settings) (P : Primitives) (E : Env) {s : State} {xs : List (Time × Step)}
    (hs : s.Begins) (h : Steps.Always (tick S P E) (Timely (Orderly S P E)) xs s) :
    (Steps.run (tick S P E) xs s).Unlocked :=
  (hs.guarded.run h).past

/-- Passwords are stored as they are, and one code fits every secret. -/
def plainly : Primitives where
  checkPassword := (· = ·)
  totpAt := fun _ _ => "123456"
  credentialId := some
  verifyCredential := fun _ _ _ _ => none

/-- One account, with an authenticator app. -/
def alone : State where
  accounts := [(7, { username := "ama", password := "pw" })]
  security := fun u => if u = 7 then some { totpSecret := some "S", totpConfirmed := true } else none

theorem alone_begins : alone.Begins := ⟨fun _ => rfl, fun _ => rfl, rfl⟩

/-- A sign-in, up to the second factor. -/
def prompted : List (Time × Step) :=
  [(1000000, .check 0 0 "ama" "pw"), (1000000, .authenticate 0), (1000000, .begin 0 {})]

def accepted : List (Time × Step) := [(9000000, .mfa 0 0 "totp" "123456"), (9000000, .complete 0 "")]

/-- A code that is not the right one. -/
def refused : List (Time × Step) := [(5000000, .mfa 0 0 "totp" "000000"), (5000000, .count 0)]

theorem logins_unlocked_once : (Steps.run (tick {} plainly Env.plain) (prompted ++ accepted) alone).Unlocked := by
  refine logins_unlocked {} plainly Env.plain alone_begins ⟨⟨?_, trivial⟩, ⟨?_, trivial⟩, ⟨?_, trivial⟩, ⟨?_, trivial⟩,
    ⟨?_, trivial⟩, trivial⟩
  all_goals decide +kernel

/-- Five wrong codes lock the account for 15 minutes; the right one then signs in. -/
theorem not_logins_unlocked : ¬ ∀ (S : Settings) (P : Primitives) (E : Env) (s : State) (xs : List (Time × Step)),
    s.Begins → Steps.Always (tick S P E) (Timely fun _ _ => True) xs s → (Steps.run (tick S P E) xs s).Unlocked := by
  intro h
  let xs := prompted ++ (List.replicate 5 refused).flatten ++ accepted
  have hrun : (Steps.run (tick {} plainly Env.plain) xs alone).logins = [⟨7, "totp", 9000000, some 905000000⟩] := by
    decide +kernel
  have hl := h {} plainly Env.plain alone xs alone_begins (by decide +kernel)
  unfold State.Unlocked at hl
  rw [hrun] at hl
  exact hl _ (List.mem_singleton_self _) (by decide)

end Login
end FlexyVotes
