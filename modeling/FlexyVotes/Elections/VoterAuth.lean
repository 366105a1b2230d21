/-
# Voter authentication

`verifyOtp`, `voterFromSso` and `voterForAccount` as programs. The passcode is
checked in a transaction of its own, then the copy of the voter the caller has
read is saved; the other two find the voter of an identity and link it.
-/
import FlexyVotes.Elections.Voters

namespace FlexyVotes
namespace VoterAuth

open Transactions Audit Voters

/-- One call of `verify_otp`. -/
structure OtpRequest where
  event : ℕ
  voter : ℕ
  challenge : String
  code : String
  purpose : String := "VOTER_LOGIN"
  now : ℕ → Time

def OtpRequest.verify (q : OtpRequest) : Otp.VerifyRequest where
  challenge := q.challenge
  code := q.code
  purpose := q.purpose
  subjectType := "voter"
  subjectId := toString q.voter

def OtpRequest.failed (q : OtpRequest) (ev : EventRow) (message : String) : Entry where
  eventType := "VOTER_OTP_FAILED"
  event := some (q.event, ev.organization)
  targetType := "elections.Voter"
  targetId := toString q.voter
  result := .FAILURE
  summary := message
  createdAt := q.now 2

/-- The columns `verify_otp` saves, from the copy `v`. -/
def OtpRequest.save (q : OtpRequest) (c : OtpRow) (v r : VoterRow) : VoterRow :=
  { r with emailVerifiedAt := if c.channel = .EMAIL then v.emailVerifiedAt.or (some (q.now 3)) else v.emailVerifiedAt
           phoneVerifiedAt := if c.channel = .SMS then v.phoneVerifiedAt.or (some (q.now 3)) else v.phoneVerifiedAt
           status := if v.status = .ELIGIBLE then .VERIFIED else v.status
           verifiedAt := if v.status = .ELIGIBLE then some (q.now 3) else v.verifiedAt
           updatedAt := q.now 4 }

/-- `verify_otp` of the copy `v`. -/
def verifyOtp (E : Env) (q : OtpRequest) (ev : EventRow) (v : VoterRow)
    (k : Except Failure OtpRow → Program) : Program :=
  Otp.verify E q.verify q.now fun
    | .error (.otp message) =>
      recordNow E (q.failed ev message) (k (.error (.crash "DatabaseError")))
        (k (.error (.voterAuth message "otp")))
    | .error failure => k (.error failure)
    | .ok c =>
      saveFields q.voter (q.save c v) (k (.error (.crash "DatabaseError"))) <|
      .note (.saved q.voter) <| k (.ok c)

/-! ### Single sign-on and accounts -/

def GENERIC_FAILURE : String := "We could not verify those details. Check them and try again."

/-- `_check_status`. -/
def checkStatus (pk : ℕ) (v : VoterRow) : Except Failure (ℕ × VoterRow) :=
  match v.status with
  | .VOTED => .error (.voterAuth "Our records show you have already voted in this election." "already_voted")
  | .SUSPENDED | .INELIGIBLE =>
    .error (.voterAuth "Your voter record cannot vote. Please contact the election officials." "ineligible")
  | .ELIGIBLE | .VERIFIED => .ok (pk, v)

def failedEntry (event : ℕ) (ev : EventRow) (request : Option Request) (method detail : String) (now : Time) :
    Entry where
  eventType := "VOTER_AUTH_FAILED"
  request := request
  event := some (event, ev.organization)
  result := .FAILURE
  summary := "Voter sign-in failed (" ++ method ++ ")"
  metadata := .obj [("method", .str method), ("detail", .str detail)]
  createdAt := now

/-- `_fail`. -/
def authFail (E : Env) (a : Entry) (k : Except Failure (ℕ × VoterRow) → Program) : Program :=
  recordNow E a (k (.error (.crash "DatabaseError"))) (k (.error (.voterAuth GENERIC_FAILURE "invalid")))

/-- The claims of an ID token the sign-in reads. -/
structure Claims where
  iss : String
  sub : String
  /-- Empty when there is none. -/
  email : String := ""
  /-- Whether `email_verified` is there and true as Python has it. -/
  emailVerified : Bool := false
  name : String := ""
  deriving DecidableEq, Repr

/-- One call of `voter_from_sso`; `draw` is what a registration draws. -/
structure SsoRequest where
  event : ℕ
  claims : Claims
  request : Option Request := none
  planLimit : Option ℕ := none
  draw : Draw
  now : ℕ → Time

/-- The blind index of the identity. -/
def SsoRequest.subject (E : Env) (q : SsoRequest) : String :=
  E.blindIndex (q.claims.iss ++ "|" ++ q.claims.sub) "sso"

def SsoRequest.register (E : Env) (q : SsoRequest) : RegisterRequest where
  event := q.event
  email := E.strip q.claims.email
  fullName := q.claims.name
  request := q.request
  planLimit := q.planLimit
  draw := q.draw
  now := q.now

/-- The voter the e-mail found, linked to the identity. -/
def SsoRequest.link (E : Env) (q : SsoRequest) (v r : VoterRow) : VoterRow :=
  { r with ssoSubjectIndex := q.subject E
           emailVerifiedAt := v.emailVerifiedAt.or (some (q.now 3)), updatedAt := q.now 4 }

/-- `voter_from_sso`: by subject, then by verified e-mail, then by
self-registration. -/
def voterFromSso (E : Env) (q : SsoRequest) (ev : EventRow) (k : Except Failure (ℕ × VoterRow) → Program) :
    Program :=
  let email := E.strip q.claims.email
  let unknown := authFail E (failedEntry q.event ev q.request "SSO" "not on roll" (q.now 5)) k
  let register : Program :=
    if email ≠ "" ∧ q.claims.emailVerified ∧ ev.allowSelfRegistration then
      selfRegister E (q.register E) ev fun
        | .error (.voterImport message) => k (.error (.voterAuth message "registration"))
        | .error failure => k (.error failure)
        | .ok (pk, v) =>
          let f (r : VoterRow) : VoterRow := { r with ssoSubjectIndex := q.subject E, source := .SSO }
          saveFields pk f (k (.error (.crash "DatabaseError"))) (k (checkStatus pk (f v)))
    else unknown
  .read fun db =>
    match firstVoter db fun v => v.election = q.event && v.ssoSubjectIndex = q.subject E with
    | some (pk, v) => k (checkStatus pk v)
    | none =>
      if email ≠ "" ∧ q.claims.emailVerified then
        .read fun db =>
          match firstVoter db (hasEmail q.event (E.blindIndex email "email")) with
          | some (pk, v) =>
            saveFields pk (q.link E v) (k (.error (.crash "DatabaseError"))) (k (checkStatus pk (q.link E v v)))
          | none => register
      else register

/-- One call of `voter_for_account`; `user` is who is signed in, with the e-mail of
the account. -/
structure AccountRequest where
  event : ℕ
  user : Option (ℕ × String)
  request : Option Request := none
  now : ℕ → Time

/-- The voter linked to the account. -/
def isLinked (e user : ℕ) (v : VoterRow) : Bool := v.election = e && v.user = some user

/-- The voter the e-mail found, linked to the account. -/
def AccountRequest.link (q : AccountRequest) (user : ℕ) (r : VoterRow) : VoterRow :=
  { r with user := some user, updatedAt := q.now 0 }

/-- `voter_for_account`: by the link, then by the e-mail, which links a voter who
has no account. -/
def voterForAccount (E : Env) (q : AccountRequest) (ev : EventRow) (k : Except Failure (ℕ × VoterRow) → Program) :
    Program :=
  match q.user with
  | none => k (.error (.voterAuth "Sign in to your account first." "login_required"))
  | some (user, email) =>
    let unknown := authFail E (failedEntry q.event ev q.request "ACCOUNT" "not on roll" (q.now 1)) k
    .read fun db =>
      match firstVoter db (isLinked q.event user) with
      | some (pk, v) => k (checkStatus pk v)
      | none =>
        if email = "" then unknown
        else
          .read fun db =>
            match firstVoter db (hasEmail q.event (E.blindIndex email "email")) with
            | none => unknown
            | some (pk, v) =>
              if v.user = none then
                saveFields pk (q.link user) (k (.error (.crash "DatabaseError"))) (k (checkStatus pk (q.link user v)))
              else k (checkStatus pk v)

/-- `_after_primary_auth`, up to the session that is opened. -/
def afterAuth : Except Failure (ℕ × VoterRow) → Program
  | .ok (pk, _) => .note (.signedIn pk) .halt
  | .error _ => .halt

end VoterAuth
end FlexyVotes
