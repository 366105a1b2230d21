/-
# The risk engine

Each assessment adds up weighted signals into a score of at most 100, and the
thresholds make a decision of it. What it reads beside the database stands in
`Sources`: the blocklist, the velocity counters, which the call itself has
counted up, what `ipaddress` makes of addresses and ranges, the list of
disposable mail domains and the countries of an event.

An assessment that is not ALLOW is recorded as an alert for analysts; nothing
of the model reads the alerts, and they are left out.

Key definitions: `Sources`, `Subject`, `assess`, `Thresholds.decision`.
-/
import FlexyVotes.Payments.Checkout

namespace FlexyVotes
namespace Fraud

open Transactions Payments Audit

/-! ### The blocklist -/

/-- `BlocklistEntry.Kind`. -/
inductive BlockKind
  | IP | CIDR | EMAIL | EMAIL_DOMAIN | PHONE | DEVICE | CARD | ANONYMIZER
  deriving DecidableEq, Repr

/-- `get_kind_display`. -/
def BlockKind.display : BlockKind → String
  | .IP => "IP address"
  | .CIDR => "IP range (CIDR)"
  | .EMAIL => "Email address"
  | .EMAIL_DOMAIN => "Email domain"
  | .PHONE => "Phone number"
  | .DEVICE => "Device"
  | .CARD => "Card signature"
  | .ANONYMIZER => "Tor exit / proxy / VPN range (CIDR)"

/-- `BlocklistEntry`. -/
structure BlocklistRow where
  kind : BlockKind
  value : String
  organization : Option ℕ := none
  reason : String := ""
  isActive : Bool := true
  expiresAt : Option Time := none
  deriving DecidableEq, Repr

/-- An entry of `_active_entries`: platform-wide or of the organization, active
and not expired. -/
def inForce (org : Option ℕ) (now : Time) (e : BlocklistRow) : Bool :=
  (e.organization = none || org.isSome && e.organization = org) && e.isActive && !e.expiresAt.any fun t => t < now

/-! ### What an assessment reads -/

/-- `FraudEvent.Kind`, as far as assessments are made of it. -/
inductive FraudKind
  | PAYMENT | VOTE | VOTER_LOGIN | STAFF_LOGIN | REGISTRATION
  deriving DecidableEq, Repr

def FraudKind.value : FraudKind → String
  | .PAYMENT => "PAYMENT"
  | .VOTE => "VOTE"
  | .VOTER_LOGIN => "VOTER_LOGIN"
  | .STAFF_LOGIN => "STAFF_LOGIN"
  | .REGISTRATION => "REGISTRATION"

/-- The settings of the engine. -/
structure Thresholds where
  hold : ℕ := 81
  challenge : ℕ := 61
  monitor : ℕ := 31
  /-- `FRAUD_FLAG_PROXIES`. -/
  flagProxies : Bool := true

/-- What stands outside the database when an assessment is made. -/
structure Sources where
  /-- The entries by primary key. -/
  blocklist : List BlocklistRow := []
  now : Time
  /-- `ip_address(ip) in ip_network(value, strict=False)`; not where either is none. -/
  inNetwork : String → String → Bool := fun _ _ => false
  /-- The velocity counter of a scope and an identity, this attempt counted. -/
  velocity : String → String → ℕ := fun _ _ => 0
  /-- `disposable_domains`. -/
  disposable : List String := []
  /-- `event.allowed_countries`. -/
  allowedCountries : ℕ → List String := fun _ => []

/-- What is assessed. -/
structure Subject where
  kind : FraudKind
  event : Option (ℕ × EventRow) := none
  candidate : Option ℕ := none
  email : String := ""
  phone : String := ""
  device : String := ""
  ip : Option String := none
  /-- The user agent, in small letters, where there is a request. -/
  userAgent : Option String := none
  /-- The request came through a proxy that says so. -/
  relayed : Bool := false
  cardSignature : String := ""
  cardCountry : String := ""
  /-- In hundredths. -/
  amount : Option ℕ := none
  votes : ℕ := 0
  countVelocity : Bool := true

/-- A signal, with its weight. -/
structure Signal where
  code : String
  weight : ℕ
  detail : String := ""
  deriving DecidableEq, Repr

section Signals

variable (E : Env) (S : Thresholds) (w : Sources) (db : Database) (q : Subject)

def Subject.mail : String := E.lower (E.strip q.email)

def Subject.emailIndex : String := if q.mail E = "" then "" else E.blindIndex (q.mail E) "email"

/-- The index of the phone as it was given. -/
def Subject.phoneIndex : String := if q.phone = "" then "" else E.blindIndex q.phone "phone"

/-- What follows the last `@`. -/
def Subject.domain : String :=
  if '@' ∈ (q.mail E).toList then String.ofList ((q.mail E).toList.rtakeWhile fun c => c ≠ '@') else ""

def Subject.org : Option ℕ := q.event.bind (·.2.organization)

/-! ### Blocklists -/

/-- `_blocklisted`. -/
def blocklisted (kind : BlockKind) (value : String) (org : Option ℕ) : Option BlocklistRow :=
  if value = "" then none
  else w.blocklist.find? fun e => inForce org w.now e && e.kind = kind && e.value = value

/-- `_ip_in_ranges`. -/
def ipInRanges (ip : Option String) (kind : BlockKind) (org : Option ℕ) : Option BlocklistRow :=
  ip.bind fun a => w.blocklist.find? fun e => inForce org w.now e && e.kind = kind && w.inNetwork a e.value

/-- The signal of an entry. -/
def BlocklistRow.signal (e : BlocklistRow) : Signal :=
  ⟨"blocklisted", 60, e.kind.display ++ ": " ++ if e.reason = "" then "listed" else e.reason⟩

/-- The signals of the address and the e-mail. -/
def addressSignals : List Signal :=
  ((blocklisted w .IP (q.ip.getD "") q.org).toList ++ (ipInRanges w q.ip .CIDR q.org).toList ++
    (blocklisted w .EMAIL (q.emailIndex E) q.org).toList).map (·.signal)

/-- The signals of the phone. -/
def phoneSignals : List Signal := (blocklisted w .PHONE (q.phoneIndex E) q.org).toList.map (·.signal)

/-- The signals of the device and the card. -/
def deviceSignals : List Signal :=
  ((blocklisted w .DEVICE q.device q.org).toList ++ (blocklisted w .CARD q.cardSignature q.org).toList).map (·.signal)

/-- The signals of the mail domain, and of proxies. -/
def originSignals : List Signal :=
  (if q.domain E ≠ "" ∧ (blocklisted w .EMAIL_DOMAIN (q.domain E) q.org).isSome then
    [⟨"blocklisted_domain", 60, q.domain E⟩] else []) ++
  if S.flagProxies then
    (if (ipInRanges w q.ip .ANONYMIZER q.org).isSome then
      [⟨"anonymizer", 25, "Tor exit / VPN / proxy range"⟩] else []) ++
    if q.userAgent.isSome ∧ q.relayed then [⟨"proxy_headers", 10, "Request relayed through an open proxy"⟩] else []
  else []

/-- The signals of the blocklists. -/
def blocklistSignals : List Signal :=
  addressSignals E w q ++ (phoneSignals E w q ++ (deviceSignals w q ++ originSignals E S w q))

/-! ### Identity and velocity -/

/-- What the user agents of programs contain. -/
def BOT_UA_MARKERS : List String :=
  ["curl/", "python-requests", "python-urllib", "wget", "go-http-client", "httpclient", "okhttp", "java/",
    "headlesschrome", "phantomjs", "selenium", "puppeteer", "playwright", "scrapy", "spider", "crawler", "libwww",
    "httpie", "postman"]

/-- The quality of the identity. -/
def identitySignals : List Signal :=
  (if q.domain E ≠ "" ∧ q.domain E ∈ w.disposable then [⟨"disposable_email", 35, q.domain E⟩] else []) ++
  match q.userAgent with
  | none => []
  | some ua =>
    if ua = "" then [⟨"missing_user_agent", 15, ""⟩]
    else if BOT_UA_MARKERS.any fun m => m.toList <:+: ua.toList then [⟨"automation_user_agent", 30, truncate 60 ua⟩]
    else []

/-- `_count`. -/
def count (scope ident : String) : ℕ := if ident = "" then 0 else w.velocity scope ident

/-- Too many attempts. -/
def velocitySignals : List Signal :=
  if q.countVelocity then
    let ip := count w (q.kind.value ++ ":ip") (q.ip.getD "")
    let device := count w (q.kind.value ++ ":device") q.device
    let email := count w (q.kind.value ++ ":email") (q.emailIndex E)
    (if 30 < ip then [⟨"ip_velocity_high", 35, toString ip ++ " attempts from this IP in 10 min"⟩]
     else if 10 < ip then [⟨"ip_velocity", 20, toString ip ++ " attempts from this IP in 10 min"⟩] else []) ++
    (if 10 < device then [⟨"device_velocity", 20, toString device ++ " attempts from this device in 10 min"⟩] else []) ++
    if 15 < email then [⟨"email_velocity", 15, toString email ++ " attempts by this email in 10 min"⟩] else []
  else []

/-! ### Payments -/

def hours (n : ℕ) : ℕ := n * 3600 * 10 ^ 6

/-- `values('payer_email_index').distinct().count()` of the payments that meet
`c` and have an e-mail. -/
def distinctEmails (c : PaymentRow → Bool) : ℕ :=
  (db.collect fun
    | .payment _ => fun p => if c p ∧ p.payerEmailIndex ≠ "" then some p.payerEmailIndex else none
    | _ => fun _ => none).dedup.length

/-- The history of the payer and the device. -/
def historySignals : List Signal :=
  let email := q.emailIndex E
  if q.kind = .PAYMENT ∧ (email ≠ "" ∨ q.device ≠ "") then
    let gone (p : PaymentRow) : Bool := w.now ≤ p.createdAt + hours 1 ∧ (p.status = .FAILED ∨ p.status = .ABANDONED)
    let failed := max (if email = "" then 0 else countPayments db fun p => gone p ∧ p.payerEmailIndex = email)
      (if q.device = "" then 0 else countPayments db fun p => gone p ∧ p.deviceHash = q.device)
    let onDevice := distinctEmails db fun p => w.now ≤ p.createdAt + hours 24 ∧ p.deviceHash = q.device
    let onIp := distinctEmails db fun p => w.now ≤ p.createdAt + hours 1 ∧ p.ipAddress = q.ip
    let charged (c : PaymentRow → Bool) : Bool :=
      0 < countPayments db fun p => (p.status = .DISPUTED ∨ p.status = .REVERSED) ∧ c p
    (if 6 ≤ failed then [⟨"repeated_failed_payments", 25, toString failed ++ " failed/abandoned in the last hour"⟩]
     else if 3 ≤ failed then [⟨"failed_payments", 15, toString failed ++ " failed/abandoned in the last hour"⟩] else []) ++
    (if q.device ≠ "" ∧ 4 ≤ onDevice then
      [⟨"device_shared_by_accounts", 25, toString onDevice ++ " payer emails on one device (account farm)"⟩] else []) ++
    (if q.ip.any (· ≠ "") ∧ 8 ≤ onIp then
      [⟨"ip_shared_by_accounts", 15, toString onIp ++ " payer emails from one IP in an hour"⟩] else []) ++
    if (email ≠ "" ∧ charged fun p => p.payerEmailIndex = email) ∨
        (q.cardSignature ≠ "" ∧ charged fun p => p.gateway.cardSignature = q.cardSignature) then
      [⟨"chargeback_history", 50, "Previous chargeback / reversal"⟩] else []
  else []

/-- The payments with a card's signature that are credited in an event. -/
def onCard (event : ℕ) (signature : String) (p : PaymentRow) : Bool :=
  p.event = some event ∧ p.gateway.cardSignature = signature ∧ p.votesCredited = true

/-- The card goes beyond the limit per voter. -/
def limitSignals : List Signal :=
  match q.event with
  | none => []
  | some (e, ev) =>
    ((limit ev.maxVotesPerVoter).filter fun m =>
      m < sumPayments db (onCard e q.cardSignature) (·.votes) + q.votes).toList.map fun m =>
        ⟨"card_vote_limit", 85, "Card exceeds the " ++ toString m ++ "-vote limit"⟩

/-- The history of the card. -/
def cardSignals : List Signal :=
  if q.cardSignature = "" then []
  else
    let emails := distinctEmails db fun p => p.gateway.cardSignature = q.cardSignature ∧ w.now ≤ p.createdAt + hours 24
    (if 3 ≤ emails then
      [⟨"card_shared_by_accounts", 30, "One card used by " ++ toString emails ++ " payer emails in 24h"⟩] else []) ++
    limitSignals db q

/-- The country of the card, and the amount. -/
def amountSignals : List Signal :=
  (match q.event with
   | none => []
   | some (e, _) =>
     if q.cardCountry ≠ "" ∧ w.allowedCountries e ≠ [] ∧
         E.upper q.cardCountry ∉ (w.allowedCountries e).map E.upper then
       [⟨"unexpected_country", 20, "Card/IP country " ++ q.cardCountry⟩] else []) ++
  (q.amount.filter fun a => 100000 ≤ a).toList.map fun a => ⟨"high_amount", 10, "Amount " ++ money a⟩

/-- The traffic for the candidate. -/
def burstSignals : List Signal :=
  match q.candidate with
  | none => []
  | some c =>
    let burst := count w "candidate-votes" (toString c)
    if q.kind = .PAYMENT ∧ 200 < burst then
      [⟨"candidate_vote_burst", 15, toString burst ++ " payment attempts for this candidate in 5 min"⟩] else []

/-! ### The assessment -/

/-- All the signals. -/
def signals : List Signal :=
  blocklistSignals E S w q ++ identitySignals E w q ++ velocitySignals E w q ++ historySignals E w db q ++
    cardSignals w db q ++ amountSignals E w q ++ burstSignals w q

/-- `decide`. -/
def Thresholds.decision (score : ℕ) : String :=
  if S.hold ≤ score then "HOLD"
  else if S.challenge ≤ score then "CHALLENGE"
  else if S.monitor ≤ score then "MONITOR"
  else "ALLOW"

def score (ss : List Signal) : ℕ := min 100 (ss.map (·.weight)).sum

/-- `assess`. -/
def assess : Assessment :=
  let n := score (signals E S w db q)
  ⟨n, S.decision n⟩

end Signals

/-! ### Assessing payments -/

/-- The checkout's subject: the order as it was sent in. -/
def checkoutSubject (q : InitiateCall) (ev : EventRow) (userAgent : String) (relayed : Bool) (quoted : Quote) : Subject where
  kind := .PAYMENT
  event := some (q.event, ev)
  candidate := some q.candidate
  email := q.order.email
  phone := q.order.phone
  device := q.deviceHash
  ip := q.ipAddress
  userAgent := some userAgent
  relayed := relayed
  amount := some quoted.amount
  votes := quoted.totalVotes

/-- The subject of a payment that is confirmed. -/
def paidSubject (db : Database) (p : PaymentRow) : Subject where
  kind := .PAYMENT
  event := p.event.bind fun e => (db.row (.event e)).map fun ev => (e, ev)
  candidate := p.candidate
  email := p.payerEmail
  phone := p.payerPhone
  device := p.deviceHash
  ip := p.ipAddress
  cardSignature := p.gateway.cardSignature
  cardCountry := p.gateway.cardCountry
  votes := p.totalVotes
  countVelocity := false

/-- What the engine says of a payment in `apply_gateway_result`. -/
def assessPaid (E : Env) (S : Thresholds) (w : Sources) (db : Database) (p : PaymentRow) : Assessment :=
  assess E S w db (paidSubject db p)

/-- A score that is held. -/
theorem Thresholds.held_iff (S : Thresholds) (n : ℕ) : (Assessment.mk n (S.decision n)).held = true ↔ S.hold ≤ n := by
  unfold Assessment.held Thresholds.decision
  split_ifs <;> simp_all

end Fraud
end FlexyVotes
