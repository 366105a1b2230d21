/-
# The tables

The rows of the models the elections core reads and writes, with the columns
it uses, and one key type for all of them. A row is kept under its primary
key; a `VoteAuthorization` is kept under its unique `token_hash`, by which
casting looks it up. A unique constraint is a row of its own: what it points
to, under the columns that have to be unique (`identifier`, `credential`,
`consumed`, `tracker`), so that an insert under a taken key is the
`IntegrityError` of the constraint.

`Env` are the primitives from outside the repository: hashes, the sealing of
a ballot, and what Python's Unicode tables decide.
-/
import FlexyVotes.Core.Json
import FlexyVotes.Lib.Programs
import Mathlib.Data.List.DropRight

namespace FlexyVotes

open Transactions

/-- Microseconds since the epoch. -/
abbrev Time := ℕ

/-- The primitives from outside the repository. -/
structure Env where
  /-- `str.isspace` of a character. -/
  isSpace : Char → Bool
  /-- `str.upper`. -/
  upper : String → String
  /-- `str.lower`. -/
  lower : String → String
  /-- `int` of a string. -/
  parseInt : String → Option ℤ
  /-- `repr` of a list or a dict. -/
  repr : Json → String
  /-- SHA-256, in hex. -/
  sha256 : String → String
  /-- HMAC-SHA256 under `SECRET_KEY`, in hex. -/
  hmac : String → String
  /-- HMAC-SHA256 under the key of the blind indexes, in hex. -/
  indexHmac : String → String
  /-- Django's `validate_email`. -/
  validEmail : String → Bool
  /-- `str.isdigit` of a character. -/
  isDigit : Char → Bool
  /-- `strftime` of a moment, in UTC. -/
  strftime : Time → String
  /-- `isoformat` of a moment. -/
  isoformat : Time → String
  /-- `crypto.sign`: the Ed25519 signature with the platform's key. -/
  sign : String → String
  /-- The platform's public key. -/
  signingKey : String
  /-- The public key of a raw X25519 private key. -/
  publicOf : String → String
  /-- `crypto.combine_shares`. -/
  combineShares : List String → String
  /-- SHA-256 of bytes. -/
  sha256Bytes : List UInt8 → List UInt8
  /-- `crypto.verify_signature`: payload, signature and public key. -/
  verifySignature : String → String → String → Bool
  /-- `SIGNING_PREVIOUS_PUBLIC_KEYS`. -/
  previousKeys : List String
  /-- `crypto.seal`: public key, plaintext, associated data, and the ephemeral
  key and nonce it draws. -/
  sealTo : String → String → String → String → String
  /-- `crypto.unseal`: raw private key, ciphertext and associated data; the
  plaintext as text, or nothing where it raises or its bytes are no text. -/
  unsealWith : String → String → String → Option String
  /-- `float` of a numeral. -/
  parseFloat : String → PyFloat

/-- `str.strip`. -/
def Env.strip (E : Env) (s : String) : String :=
  String.ofList ((s.toList.dropWhile E.isSpace).rdropWhile E.isSpace)

/-- `crypto.keyed_hash`. -/
def Env.keyedHash (E : Env) (scope value : String) : String := E.hmac (scope ++ ":" ++ value)

/-- `crypto.blind_index`. -/
def Env.blindIndex (E : Env) (value purpose : String) : String :=
  if E.strip value = "" then "" else E.indexHmac (purpose ++ ":" ++ E.lower (E.strip value))

/-- `hash_voting_code`. -/
def Env.hashVotingCode (E : Env) (event : ℕ) (code : String) : String :=
  E.hmac (toString event ++ ":" ++ E.upper (E.strip code))

/-- Stripping twice is stripping once. -/
@[simp] theorem Env.strip_strip (E : Env) (s : String) : E.strip (E.strip s) = E.strip s := by
  have hhead : ∀ l : List Char, ((l.dropWhile E.isSpace).rdropWhile E.isSpace).dropWhile E.isSpace =
      (l.dropWhile E.isSpace).rdropWhile E.isSpace := fun l => by
    rw [List.dropWhile_eq_self_iff]
    intro hlen
    have hpre := List.rdropWhile_prefix E.isSpace (l := l.dropWhile E.isSpace)
    rw [hpre.getElem hlen]
    exact List.dropWhile_get_zero_not E.isSpace l (hlen.trans_le hpre.length_le)
  unfold Env.strip
  rw [String.toList_ofList, hhead, List.rdropWhile_idempotent]

/-- Primitives to evaluate a run with: text is its own hash, and a sealed text
is the ephemeral key it was sealed with. -/
def Env.plain : Env where
  isSpace := fun _ => false
  upper := id
  lower := id
  parseInt := fun _ => none
  repr := fun _ => ""
  sha256 := id
  hmac := id
  indexHmac := id
  validEmail := fun _ => true
  isDigit := Char.isDigit
  strftime := fun _ => ""
  isoformat := fun _ => ""
  sign := id
  signingKey := ""
  publicOf := id
  combineShares := fun _ => ""
  sha256Bytes := fun _ => List.replicate 32 0
  verifySignature := fun _ _ _ => true
  previousKeys := []
  sealTo := fun _ _ _ r => r
  unsealWith := fun _ _ _ => none
  parseFloat := fun r => .finite 0 r

/-- `crypto.key_fingerprint`. -/
def Env.keyFingerprint (E : Env) (publicKey : String) : String :=
  String.ofList ((E.sha256 publicKey).toList.take 16)

/-- Why an operation fails: the exception it raises. -/
inductive Failure
  /-- `CastError`: its message and code. -/
  | cast (message code : String)
  /-- `BallotError`: its message. -/
  | ballot (message : String)
  /-- `LifecycleError`. -/
  | lifecycle (message : String)
  /-- `KeyCustodyError`. -/
  | keyCustody (message : String)
  /-- `ResultsError`. -/
  | results (message : String)
  /-- `IntegrityControlError`. -/
  | integrity (message : String)
  /-- `PermissionDenied`. -/
  | permission
  /-- `VoterImportError`. -/
  | voterImport (message : String)
  /-- `VoterAuthError`: its message and code. -/
  | voterAuth (message code : String)
  /-- `OTPError`. -/
  | otp (message : String)
  /-- `PaymentError`: its message and code. -/
  | payment (message code : String)
  /-- `BillingLimitError`. -/
  | billingLimit
  /-- An exception nothing on the path expects. -/
  | crash (exception : String)
  deriving DecidableEq, Repr

/-! ### Choices -/

inductive EventStatus
  | DRAFT | REVIEW | APPROVED | SCHEDULED | OPEN | PAUSED | CLOSED | TALLYING | CERTIFIED | PUBLISHED
  | ARCHIVED
  deriving DecidableEq, Repr

inductive VotingMode
  | PAY_TO_VOTE | CODE_VOTING
  deriving DecidableEq, Repr

inductive CodeVotingMode
  | STANDARD | STUDENT_ID
  deriving DecidableEq, Repr

inductive ResultsVisibility
  | LIVE | AFTER_CLOSE | AFTER_PUBLISH
  deriving DecidableEq, Repr

inductive KeyCustody
  | SYSTEM | TRUSTEES
  deriving DecidableEq, Repr

inductive BallotType
  | SINGLE | FPTP | MULTIPLE | APPROVAL | RANKED | SCORE | REFERENDUM
  deriving DecidableEq, Repr

inductive CandidateStatus
  | ACTIVE | WITHDRAWN | DISQUALIFIED | ELIMINATED
  deriving DecidableEq, Repr

inductive RuleKind
  | CONSTITUENCY | ATTRIBUTE_EQUALS | ATTRIBUTE_IN | ATTRIBUTE_NOT_IN | EMAIL_DOMAIN | VERIFIED_EMAIL
  | VERIFIED_PHONE
  deriving DecidableEq, Repr

inductive VoterStatus
  | ELIGIBLE | VERIFIED | VOTED | SUSPENDED | INELIGIBLE
  deriving DecidableEq, Repr

inductive VoterSource
  | MANUAL | CSV | XLSX | API | SELF_REGISTRATION | SSO | CODES | LEGACY
  deriving DecidableEq, Repr

inductive AuthorizationStatus
  | ISSUED | CONSUMED | REVOKED | EXPIRED
  deriving DecidableEq, Repr

inductive ResultKind
  | OFFICIAL | RECOUNT | INDEPENDENT
  deriving DecidableEq, Repr

inductive ResultStatus
  | PENDING_REVIEW | APPROVED | REJECTED | SUPERSEDED | INFORMATIONAL
  deriving DecidableEq, Repr

inductive ApprovalAction
  | UNFREEZE | EXTEND_VOTING | REOPEN_VOTING | BULK_CREDENTIAL_RESET | DECERTIFY | RELEASE_LEGAL_HOLD
  | REFUND
  deriving DecidableEq, Repr

inductive ApprovalStatus
  | PENDING | APPROVED | REJECTED | EXECUTED | FAILED | CANCELLED | EXPIRED
  deriving DecidableEq, Repr

/-- How far a call on a request for an approval has come. -/
inductive DecisionPhase
  /-- The request was read, to be saved with this status. -/
  | deciding (status : ApprovalStatus)
  /-- Saved as rejected, cancelled or expired. -/
  | closed
  | approved
  | executing
  | executed
  deriving DecidableEq, Repr

inductive DisputeStatus
  | OPEN | UNDER_REVIEW | UPHELD | DISMISSED | WITHDRAWN
  deriving DecidableEq, Repr

inductive AuditResult
  | SUCCESS | FAILURE | DENIED
  deriving DecidableEq, Repr

/-- `OTPChallenge.Channel`. -/
inductive Channel
  | EMAIL | SMS
  deriving DecidableEq, Repr

/-- `Payment.Status`. -/
inductive PaymentStatus
  | INITIALIZED | PENDING | SUCCESS | FAILED | ABANDONED | REVERSED | REFUNDED | PARTIALLY_REFUNDED | DISPUTED
  deriving DecidableEq, Repr

/-- `Payment.Purpose`. -/
inductive PaymentPurpose
  | VOTE | INVOICE
  deriving DecidableEq, Repr

/-- `Invoice.Status`. -/
inductive InvoiceStatus
  | DRAFT | OPEN | PAID | VOID
  deriving DecidableEq, Repr

/-- `Subscription.Status`. -/
inductive SubscriptionStatus
  | TRIALING | ACTIVE | PAST_DUE | CANCELED
  deriving DecidableEq, Repr

/-- `VoteTransaction.Status`. -/
inductive LedgerStatus
  | PENDING | SUCCESS | FAILED | REVERSED
  deriving DecidableEq, Repr

/-- `VoteTransaction.VoteType`. -/
inductive VoteType
  | MAIN | TIE_BREAKER
  deriving DecidableEq, Repr

/-- `DiscountCode.Kind`. -/
inductive DiscountKind
  | PERCENT | FIXED | BONUS_VOTES
  deriving DecidableEq, Repr

/-- `Refund.Status`. -/
inductive RefundStatus
  | REQUESTED | APPROVED | PROCESSING | PROCESSED | FAILED | REJECTED
  deriving DecidableEq, Repr

def RefundStatus.value : RefundStatus → String
  | .REQUESTED => "REQUESTED"
  | .APPROVED => "APPROVED"
  | .PROCESSING => "PROCESSING"
  | .PROCESSED => "PROCESSED"
  | .FAILED => "FAILED"
  | .REJECTED => "REJECTED"

/-- The status of a `TicketPurchase`. -/
inductive PurchaseStatus
  | Pending | Success | Failed
  deriving DecidableEq, Repr

/-- `TicketPurchase.PurchaseMethod`. -/
inductive PurchaseMethod
  | WEB | USSD
  deriving DecidableEq, Repr

inductive IdempotencyState
  | IN_PROGRESS | COMPLETED
  deriving DecidableEq, Repr

/-! ### Rows -/

/-- `Event`. -/
structure EventRow where
  organization : Option ℕ := none
  votingMode : VotingMode := .PAY_TO_VOTE
  codeVotingMode : CodeVotingMode := .STANDARD
  title : String := ""
  timezone : String := "Africa/Accra"
  currency : String := "GHS"
  resultsVisibility : ResultsVisibility := .LIVE
  startDate : Time
  endDate : Time
  isActive : Bool := true
  status : EventStatus := .DRAFT
  authMethods : List String := ["CODE"]
  requireSecondFactor : Bool := false
  allowSelfRegistration : Bool := false
  registrationEmailDomains : String := ""
  dualApprovalRequired : Bool := false
  configFrozen : Bool := false
  ballotFrozen : Bool := false
  candidatesFrozen : Bool := false
  voterListFrozen : Bool := false
  legalHold : Bool := false
  submittedBy : Option ℕ := none
  reviewedBy : Option ℕ := none
  recordConstituencyOnBallot : Bool := false
  minAnonymitySet : ℕ := 5
  maxVotesPerVoter : Option ℕ := none
  minVotesPerTransaction : ℕ := 1
  maxVotesPerTransaction : Option ℕ := none
  /-- In hundredths. -/
  maxSpendPerVoter : Option ℕ := none
  /-- In hundredths. -/
  votePrice : ℕ := 100
  keyCustody : KeyCustody := .SYSTEM
  trusteeThreshold : ℕ := 0
  openedAt : Option Time := none
  closedAt : Option Time := none
  certifiedAt : Option Time := none
  publishedAt : Option Time := none
  archivedAt : Option Time := none

/-- `Event.is_institutional`. -/
def EventRow.isInstitutional (ev : EventRow) : Bool := ev.votingMode = .CODE_VOTING

/-- `Organization`. -/
structure OrganizationRow where
  name : String

/-- `Constituency`. -/
structure ConstituencyRow where
  organization : Option ℕ := none
  name : String := ""
  code : String := ""
  path : String

/-- `Category`: a position of an election. -/
structure CategoryRow where
  event : ℕ
  name : String
  ballotType : BallotType := .SINGLE
  minSelect : ℕ := 1
  maxSelect : ℕ := 1
  allowAbstain : Bool := true
  seats : ℕ := 1
  maxScore : ℕ := 10
  /-- In hundredths of a percent. -/
  referendumThreshold : ℕ := 5000
  constituency : Option ℕ := none
  displayOrder : ℕ := 0
  /-- In hundredths. -/
  votePrice : Option ℕ := none
  maxVotesPerVoter : Option ℕ := none

/-- `Candidate`. -/
structure CandidateRow where
  category : Option ℕ
  event : ℕ
  name : String
  status : CandidateStatus := .ACTIVE
  displayOrder : ℕ := 0
  maxVotesPerVoter : Option ℕ := none
  nomineeCode : Option String := none

/-- `EligibilityRule`. -/
structure RuleRow where
  election : ℕ
  position : Option ℕ := none
  kind : RuleKind
  attributeName : String := ""
  values : List Json := []
  constituency : Option ℕ := none
  description : String := ""
  isActive : Bool := true

/-- `Voter`. -/
structure VoterRow where
  election : ℕ
  identifier : Option String := none
  fullName : String := ""
  email : Option String := none
  emailIndex : String := ""
  phone : Option String := none
  phoneIndex : String := ""
  constituency : Option ℕ := none
  attributes : List (String × Json) := []
  status : VoterStatus := .ELIGIBLE
  statusReason : String := ""
  credentialHash : Option String := none
  credentialCiphertext : Option String := none
  credentialIssuedAt : Option Time := none
  credentialVersion : ℕ := 0
  emailVerifiedAt : Option Time := none
  phoneVerifiedAt : Option Time := none
  verifiedAt : Option Time := none
  user : Option ℕ := none
  ssoSubjectIndex : String := ""
  source : VoterSource := .MANUAL
  votedAt : Option Time := none
  updatedAt : Time := 0

/-- `Voter.can_vote`. -/
def VoterRow.canVote (v : VoterRow) : Bool := v.status = .ELIGIBLE || v.status = .VERIFIED

/-- `VoteAuthorization`, under its `token_hash`. -/
structure AuthorizationRow where
  id : String
  election : ℕ
  voter : ℕ
  status : AuthorizationStatus := .ISSUED
  authMethod : String
  ballotStyle : List ℕ
  issuedAt : Time
  expiresAt : Time
  consumedAt : Option Time := none
  deriving DecidableEq

/-- `ElectionKey`, under its election. -/
structure BallotKeyRow where
  publicKey : String
  fingerprint : String := ""
  custody : KeyCustody := .SYSTEM
  wrappedPrivateKey : Option String := none
  threshold : ℕ := 0
  shares : ℕ := 0

/-- `TrusteeShare`. -/
structure TrusteeShareRow where
  election : ℕ
  trustee : ℕ
  index : ℕ
  shareHash : String
  pendingShare : Option String := none
  submittedShare : Option String := none
  submittedAt : Option Time := none

/-- `Ballot`, under its random UUID. -/
structure BallotRow where
  election : ℕ
  ciphertext : String
  tracker : String
  styleHash : String
  constituencyId : Option ℕ
  deriving DecidableEq

/-- `ElectionConfigSnapshot`, under its election and version. -/
structure ConfigSnapshotRow where
  reason : String
  config : Json
  configHash : String
  signature : String
  publicKey : String
  keyId : String
  createdBy : Option ℕ

/-- `ElectionResult`. -/
structure ResultRow where
  election : ℕ
  kind : ResultKind
  status : ResultStatus
  data : Json
  resultHash : String
  bulletinRoot : String
  ballotsCounted : ℕ
  eligibleVoters : ℕ
  votesCast : ℕ
  talliedBy : Option ℕ
  talliedAt : Time
  reviewedBy : Option ℕ := none
  reviewedAt : Option Time := none
  reviewNotes : String := ""

/-- `ResultCertification`. -/
structure CertificationRow where
  election : ℕ
  result : ℕ
  payload : Json
  payloadHash : String
  signature : String
  publicKey : String
  keyId : String
  talliedBy : Option ℕ
  certifiedBy : Option ℕ
  certifiedAt : Time
  revokedAt : Option Time := none
  revokedReason : String := ""

/-- `ApprovalRequest`. -/
structure ApprovalRow where
  election : Option ℕ
  organization : Option ℕ
  action : ApprovalAction
  payload : Json
  reason : String
  status : ApprovalStatus := .PENDING
  requestedBy : ℕ
  decidedBy : Option ℕ := none
  decidedAt : Option Time := none
  decisionNote : String := ""
  executedAt : Option Time := none
  result : Json := .obj []
  expiresAt : Time

/-- `Recount`. -/
structure RecountRow where
  election : ℕ
  independent : Bool
  reason : String
  requestedBy : Option ℕ
  result : ℕ
  comparedTo : Option ℕ
  isMatch : Option Bool
  differences : Json

/-- `Dispute`. -/
structure DisputeRow where
  election : ℕ
  status : DisputeStatus

/-- `VotePackage`. -/
structure VotePackageRow where
  event : ℕ
  isActive : Bool
  name : String := ""
  votes : ℕ := 0
  bonusVotes : ℕ := 0
  /-- In hundredths. -/
  price : ℕ := 0
  startsAt : Option Time := none
  endsAt : Option Time := none
  maxPerPayer : Option ℕ := none

/-- The moment is not before the one and is before the other, where they are given. -/
def within (startsAt endsAt : Option Time) (now : Time) : Bool :=
  !startsAt.any (fun t => now < t) && !endsAt.any (fun t => t ≤ now)

/-- `VotePackage.is_available`. -/
def VotePackageRow.isAvailable (p : VotePackageRow) (now : Time) : Bool := p.isActive && within p.startsAt p.endsAt now

/-- The columns of a payment that a success report of the gateway fills. -/
structure GatewayDetails where
  channel : String := ""
  cardSignature : String := ""
  cardLast4 : String := ""
  cardBrand : String := ""
  cardBank : String := ""
  cardCountry : String := ""
  gatewayId : String := ""
  gatewayIp : Option String := none
  /-- In hundredths. -/
  fees : Option ℤ := none
  gatewayPaidAt : Option Time := none
  deriving DecidableEq

/-- `Payment`, under its `reference`. -/
structure PaymentRow where
  purpose : PaymentPurpose := .VOTE
  event : Option ℕ := none
  candidate : Option ℕ := none
  package : Option ℕ := none
  discount : Option ℕ := none
  invoice : Option ℕ := none
  idempotencyKey : Option String := none
  votes : ℕ := 0
  bonusVotes : ℕ := 0
  /-- In hundredths, as all the amounts. -/
  unitPrice : ℕ := 0
  grossAmount : ℕ := 0
  discountAmount : ℕ := 0
  /-- `amount_minor`: the amount in hundredths. -/
  amountMinor : ℕ
  refundedAmount : ℕ := 0
  currency : String := "GHS"
  payerEmail : String := ""
  payerEmailIndex : String := ""
  payerPhone : String := ""
  payerPhoneIndex : String := ""
  gateway : GatewayDetails := {}
  authorizationUrl : String := ""
  accessCode : String := ""
  status : PaymentStatus := .INITIALIZED
  gatewayStatus : String := ""
  riskScore : Option ℕ := none
  riskDecision : String := ""
  held : Bool := false
  holdReason : String := ""
  ipAddress : Option String := none
  deviceHash : String := ""
  verifiedAt : Option Time := none
  creditedAt : Option Time := none
  votesCredited : Bool := false
  createdAt : Time := 0
  updatedAt : Time := 0
  deriving DecidableEq

/-- `Payment.total_votes`. -/
def PaymentRow.totalVotes (p : PaymentRow) : ℕ := p.votes + p.bonusVotes

/-- `VoteTransaction`. -/
structure VoteTransactionRow where
  candidate : ℕ
  payment : Option String := none
  voterEmail : String
  amountMinor : ℕ
  paystackReference : String
  status : LedgerStatus := .PENDING
  voteType : VoteType := .MAIN
  numberOfVotes : ℕ := 1
  deriving DecidableEq

/-- `DiscountCode`. -/
structure DiscountCodeRow where
  code : String := ""
  organization : Option ℕ := none
  event : Option ℕ := none
  kind : DiscountKind := .PERCENT
  /-- In hundredths. -/
  value : ℕ := 0
  /-- In hundredths. -/
  minAmount : Option ℕ := none
  maxRedemptions : Option ℕ := none
  perPayerLimit : Option ℕ := none
  startsAt : Option Time := none
  endsAt : Option Time := none
  isActive : Bool := true
  redemptionsCount : ℕ := 0
  deriving DecidableEq

/-- `DiscountCode.is_available`. -/
def DiscountCodeRow.isAvailable (d : DiscountCodeRow) (now : Time) : Bool :=
  d.isActive && within d.startsAt d.endsAt now && !d.maxRedemptions.any fun m => m ≤ d.redemptionsCount

/-- `Refund`, under its UUID. -/
structure RefundRow where
  payment : String
  /-- In hundredths. -/
  amount : ℕ
  reason : String
  status : RefundStatus := .REQUESTED
  reverseVotes : Bool := true
  gatewayRefundId : String := ""
  requestedBy : ℕ
  approvedBy : Option ℕ := none
  requestedAt : Time
  processedAt : Option Time := none
  error : String := ""
  deriving DecidableEq

/-- `Invoice`. -/
structure InvoiceRow where
  number : String
  organization : ℕ
  status : InvoiceStatus := .DRAFT
  periodStart : Time
  periodEnd : Time
  paidAt : Option Time := none
  deriving DecidableEq

/-- `Subscription`, under its organization. -/
structure SubscriptionRow where
  status : SubscriptionStatus := .TRIALING
  currentPeriodStart : Time
  currentPeriodEnd : Time
  deriving DecidableEq

/-- `Ticket`. -/
structure TicketRow where
  event : ℕ
  name : String := ""
  /-- In hundredths. -/
  price : ℕ
  quantityAvailable : ℕ := 100
  isActive : Bool := true
  deriving DecidableEq

/-- `TicketPurchase`, under its unique `paystack_reference`. -/
structure PurchaseRow where
  ticket : ℕ
  event : ℕ
  buyerName : String := ""
  buyerEmail : String
  quantity : ℕ := 1
  status : PurchaseStatus := .Pending
  purchaseMethod : PurchaseMethod := .WEB
  purchasedAt : Time := 0
  deriving DecidableEq

/-- `OTPChallenge`, under its UUID. -/
structure OtpRow where
  purpose : String
  subjectType : String
  subjectId : String
  channel : Channel
  codeHash : String
  attempts : ℕ := 0
  maxAttempts : ℕ := 5
  expiresAt : Time
  consumedAt : Option Time := none

/-- `AuditChainHead`, under its chain. -/
structure AuditHeadRow where
  seq : ℕ := 0
  lastHash : String
  deriving DecidableEq

/-- `AuditEvent`, under its chain and its number in it. -/
structure AuditEventRow where
  eventType : String
  actorId : Option ℕ
  actorLabel : String
  organizationId : Option ℕ
  electionId : Option ℕ
  targetType : String
  targetId : String
  summary : String
  ipAddress : Option String
  userAgent : String
  correlationId : String
  changes : Json
  metadata : Json
  result : AuditResult
  reason : String
  createdAt : Time
  prevHash : String
  hash : String

/-- `IdempotencyRecord`, under its scope and key. -/
structure IdempotencyRow where
  requestHash : String
  state : IdempotencyState := .IN_PROGRESS
  responseStatus : Option ℕ := none
  responseBody : Option Json := none
  expiresAt : Time

/-! ### Keys -/

inductive Key
  | organization (pk : ℕ)
  | event (pk : ℕ)
  | constituency (pk : ℕ)
  | category (pk : ℕ)
  | candidate (pk : ℕ)
  | rule (pk : ℕ)
  | voter (pk : ℕ)
  /-- `uniq_voter_identifier`. -/
  | identifier (election : ℕ) (identifier : String)
  /-- `uniq_voter_credential`. -/
  | credential (election : ℕ) (hash : String)
  | authorization (tokenHash : String)
  /-- `one_consumed_authorization_per_voter`. -/
  | consumed (voter : ℕ)
  | ballotKey (election : ℕ)
  | ballot (id : String)
  /-- The unique `Ballot.tracker`. -/
  | tracker (tracker : String)
  | trusteeShare (pk : ℕ)
  /-- `uniq_config_snapshot_version`. -/
  | configSnapshot (election version : ℕ)
  | result (pk : ℕ)
  | certification (pk : ℕ)
  | approval (pk : ℕ)
  | recount (pk : ℕ)
  | dispute (pk : ℕ)
  | votePackage (pk : ℕ)
  | payment (reference : String)
  | voteTransaction (pk : ℕ)
  /-- The `OneToOneField` of `VoteTransaction.payment`. -/
  | paid (payment : String)
  /-- The unique `VoteTransaction.paystack_reference`. -/
  | ledger (reference : String)
  | discountCode (pk : ℕ)
  /-- `uniq_payment_idempotency_key`. -/
  | paymentKey (key : String)
  | refund (id : String)
  | invoice (pk : ℕ)
  | subscription (organization : ℕ)
  | ticket (pk : ℕ)
  | purchase (reference : String)
  | otp (id : String)
  | auditHead (chain : String)
  | auditEvent (chain : String) (seq : ℕ)
  | idempotency (scope key : String)
  deriving DecidableEq, Repr

/-- The row under a key; under a unique constraint, what it points to. -/
abbrev Row : Key → Type
  | .organization _ => OrganizationRow
  | .event _ => EventRow
  | .constituency _ => ConstituencyRow
  | .category _ => CategoryRow
  | .candidate _ => CandidateRow
  | .rule _ => RuleRow
  | .voter _ => VoterRow
  | .identifier _ _ => ℕ
  | .credential _ _ => ℕ
  | .authorization _ => AuthorizationRow
  | .consumed _ => String
  | .ballotKey _ => BallotKeyRow
  | .ballot _ => BallotRow
  | .tracker _ => String
  | .trusteeShare _ => TrusteeShareRow
  | .configSnapshot _ _ => ConfigSnapshotRow
  | .result _ => ResultRow
  | .certification _ => CertificationRow
  | .approval _ => ApprovalRow
  | .recount _ => RecountRow
  | .dispute _ => DisputeRow
  | .votePackage _ => VotePackageRow
  | .payment _ => PaymentRow
  | .voteTransaction _ => VoteTransactionRow
  | .paid _ => ℕ
  | .ledger _ => ℕ
  | .discountCode _ => DiscountCodeRow
  | .paymentKey _ => String
  | .refund _ => RefundRow
  | .invoice _ => InvoiceRow
  | .subscription _ => SubscriptionRow
  | .ticket _ => TicketRow
  | .purchase _ => PurchaseRow
  | .otp _ => OtpRow
  | .auditHead _ => AuditHeadRow
  | .auditEvent _ _ => AuditEventRow
  | .idempotency _ _ => IdempotencyRow

/-- What a request reports as it goes on. -/
inductive Note
  /-- A cast saw the election accept votes. -/
  | accepted (event : ℕ)
  /-- A token was handed out. -/
  | issued (tokenHash : String) (voter : ℕ)
  /-- A ballot was recorded for a token. -/
  | recorded (tokenHash ballot : String)
  /-- A result was recorded, counting the ballots. -/
  | tallied (event result : ℕ) (ballots : List String)
  /-- A voter who had not voted was read, to be saved later. -/
  | seen (voter : ℕ)
  /-- The voter that was read is saved. -/
  | saved (voter : ℕ)
  /-- A registration found no roll entry of the e-mail. -/
  | registering (event : ℕ) (emailIndex : String)
  /-- A roll entry of the e-mail was created. -/
  | registered (event : ℕ) (emailIndex : String) (voter : ℕ)
  /-- The gateway's report of a success, of this amount and currency, was applied. -/
  | succeeded (payment : String) (amount : ℤ) (currency : String)
  /-- The hold of a successful payment was released. -/
  | released (payment : String)
  /-- A successful payment that is neither held nor credited was found. -/
  | uncredited (payment : String)
  /-- A refund of the payment was found to be within its limit, and is to be requested. -/
  | asking (payment : String)
  /-- The refund is requested. -/
  | asked (payment : String)
  /-- A requested refund was read, to be approved. -/
  | approving (refund : String)
  /-- What the gateway answered to the refund was saved. -/
  | submitted (refund : String)
  /-- A refund was read, which the gateway reports as failed. -/
  | failing (refund : String)
  /-- The checkout of the payment was created, and the gateway refuses it. -/
  | refused (payment : String)
  /-- A dispute of the payment was lost. -/
  | lost (payment : String)
  /-- The gateway is asked to charge this amount for the purchase. -/
  | charging (purchase : String) (amount : ℕ)
  /-- A call on the request came to this phase. -/
  | decision (approval : ℕ) (phase : DecisionPhase)
  /-- A voter session of the voter was opened. -/
  | signedIn (voter : ℕ)
  /-- The purchase of this call returned the payment. -/
  | returned (call : ℕ) (payment : String)
  /-- The purchase of this call was declined, with this code. -/
  | declined (call : ℕ) (code : String)
  /-- The code of this call was compared with the challenge's. -/
  | compared (call : ℕ) (challenge : String)
  /-- This call returned the challenge. -/
  | verified (call : ℕ) (challenge : String)
  deriving DecidableEq, Repr

abbrev Database := Db Row
abbrev Program := Prog Row Note

/-! ### Related rows -/

/-- `event.categories`, by display order. -/
def categoriesOf (db : Database) (e : ℕ) : List (ℕ × CategoryRow) :=
  (db.collect fun
    | .category pk => fun r => if r.event = e then some (pk, r) else none
    | _ => fun _ => none).insertionSort fun a b =>
      a.2.displayOrder < b.2.displayOrder ∨ (a.2.displayOrder = b.2.displayOrder ∧ a.1 ≤ b.1)

/-- `position.candidates`, by display order. -/
def candidatesOf (db : Database) (position : ℕ) : List (ℕ × CandidateRow) :=
  (db.collect fun
    | .candidate pk => fun r => if r.category = some position then some (pk, r) else none
    | _ => fun _ => none).insertionSort fun a b =>
      a.2.displayOrder < b.2.displayOrder ∨ (a.2.displayOrder = b.2.displayOrder ∧ a.1 ≤ b.1)

/-- The display order depends on the rows only. -/
theorem displayOrder_congr {α : Type} (order pk : α → ℕ) {l l' : List α} (h : l.Perm l')
    (hpk : (l.map pk).Nodup) :
    l.insertionSort (fun a b => order a < order b ∨ (order a = order b ∧ pk a ≤ pk b)) =
      l'.insertionSort fun a b => order a < order b ∨ (order a = order b ∧ pk a ≤ pk b) := by
  have : Std.Total fun a b : α => order a < order b ∨ (order a = order b ∧ pk a ≤ pk b) := ⟨fun a b => by omega⟩
  have : IsTrans α fun a b => order a < order b ∨ (order a = order b ∧ pk a ≤ pk b) := ⟨fun a b c => by omega⟩
  refine insertionSort_congr h fun a ha b hb hab hba => ?_
  exact List.inj_on_of_nodup_map hpk ha hb (by omega)

theorem categories_nodup (db : Database) (e : ℕ) :
    ((db.collect fun
      | .category pk => fun r => if r.event = e then some (pk, r) else none
      | _ => fun _ => none).map (·.1)).Nodup := by
  refine Db.collect_nodup db _ fun k r x k' r' x' hx hx' heq => ?_
  cases k <;> try cases hx
  cases k' <;> try cases hx'
  dsimp only at hx hx'
  split_ifs at hx hx'
  cases hx
  cases hx'
  exact congrArg Key.category heq

theorem categoriesOf_nodup (db : Database) (e : ℕ) : ((categoriesOf db e).map (·.1)).Nodup := by
  unfold categoriesOf
  exact ((List.perm_insertionSort _ _).map Prod.fst).nodup_iff.mpr (categories_nodup db e)

theorem candidates_nodup (db : Database) (position : ℕ) :
    ((db.collect fun
      | .candidate pk => fun r => if r.category = some position then some (pk, r) else none
      | _ => fun _ => none).map (·.1)).Nodup := by
  refine Db.collect_nodup db _ fun k r x k' r' x' hx hx' heq => ?_
  cases k <;> try cases hx
  cases k' <;> try cases hx'
  dsimp only at hx hx'
  split_ifs at hx hx'
  cases hx
  cases hx'
  exact congrArg Key.candidate heq

theorem candidatesOf_nodup (db : Database) (position : ℕ) : ((candidatesOf db position).map (·.1)).Nodup := by
  unfold candidatesOf
  exact ((List.perm_insertionSort _ _).map Prod.fst).nodup_iff.mpr (candidates_nodup db position)

/-- The positions of an election depend on the rows of the categories only. -/
theorem categoriesOf_congr {db db' : Database} (h : ∀ pk, db'.row (.category pk) = db.row (.category pk)) (e : ℕ) :
    categoriesOf db' e = categoriesOf db e := by
  refine displayOrder_congr (fun c : ℕ × CategoryRow => c.2.displayOrder) (·.1)
    (Db.collect_perm fun k => ?_) (categories_nodup db' e)
  cases k with
  | category pk => rw [h]
  | _ => simp

/-- The candidates of a position depend on the rows of the candidates only. -/
theorem candidatesOf_congr {db db' : Database} (h : ∀ pk, db'.row (.candidate pk) = db.row (.candidate pk))
    (position : ℕ) : candidatesOf db' position = candidatesOf db position := by
  refine displayOrder_congr (fun c : ℕ × CandidateRow => c.2.displayOrder) (·.1)
    (Db.collect_perm fun k => ?_) ?_
  · cases k with
    | candidate pk => rw [h]
    | _ => simp
  · exact candidates_nodup db' position

/-- The active `event.eligibility_rules`. -/
def rulesOf (db : Database) (e : ℕ) : List RuleRow :=
  db.collect fun
    | .rule _ => fun r => if r.election = e ∧ r.isActive then some r else none
    | _ => fun _ => none

end FlexyVotes
