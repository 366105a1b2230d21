import FlexyVotes.Lib.Tables
import FlexyVotes.Lib.Programs
import FlexyVotes.Lib.Rely
import FlexyVotes.Lib.Serial
import FlexyVotes.Lib.Merkle
import FlexyVotes.Lib.MultiDict
import FlexyVotes.Lib.Paths
import FlexyVotes.Lib.Transfer
import FlexyVotes.Lib.Places
import FlexyVotes.Lib.Confluence
import FlexyVotes.Lib.Steps
import FlexyVotes.Lib.Sharing
import FlexyVotes.Lib.Failures
import FlexyVotes.Core.Merkle
import FlexyVotes.Core.Binding
import FlexyVotes.Core.Numerals
import FlexyVotes.Core.Shamir
import FlexyVotes.Core.Parsing
import FlexyVotes.Core.Json
import FlexyVotes.Models
import FlexyVotes.Core.Audit
import FlexyVotes.Core.Otp
import FlexyVotes.Elections.Ballot
import FlexyVotes.Elections.Tally
import FlexyVotes.Elections.Proportional
import FlexyVotes.Elections.Standings
import FlexyVotes.Elections.Rounds
import FlexyVotes.Elections.Runoff
import FlexyVotes.Elections.Lots
import FlexyVotes.Elections.Eligibility
import FlexyVotes.Elections.Configuration
import FlexyVotes.Elections.Lifecycle
import FlexyVotes.Elections.Results
import FlexyVotes.Elections.Counting
import FlexyVotes.Elections.Certification
import FlexyVotes.Elections.Certified
import FlexyVotes.Elections.Verification
import FlexyVotes.Elections.Verifiers
import FlexyVotes.Elections.Casting
import FlexyVotes.Elections.Voters
import FlexyVotes.Elections.VoterAuth
import FlexyVotes.Elections.VoterSession
import FlexyVotes.Elections.Authorizations
import FlexyVotes.Elections.EndToEnd
import FlexyVotes.Elections.Closing
import FlexyVotes.Elections.Participation
import FlexyVotes.Elections.Registration
import FlexyVotes.Elections.Integrity
import FlexyVotes.Payments.Service
import FlexyVotes.Payments.Credit
import FlexyVotes.Payments.Reports
import FlexyVotes.Payments.Tickets
import FlexyVotes.Payments.Refunds
import FlexyVotes.Payments.Webhooks
import FlexyVotes.Payments.Checkout
import FlexyVotes.Fraud.Engine
import FlexyVotes.Fraud.Blocklist
import FlexyVotes.Payments.Menus
import FlexyVotes.Payments.Proportions
import FlexyVotes.Payments.CardCaps
import FlexyVotes.Payments.PurchaseKeys
import FlexyVotes.Payments.RefundStates
import FlexyVotes.Payments.UssdVotes
import FlexyVotes.Payments.Assessments
import FlexyVotes.Payments.Releases
import FlexyVotes.Payments.Runs
import FlexyVotes.Payments.RefundRuns
import FlexyVotes.Payments.Transitions
import FlexyVotes.Payments.Reversals
import FlexyVotes.Payments.RefundLimits
import FlexyVotes.Payments.Settlement
import FlexyVotes.Payments.Caps
import FlexyVotes.Payments.RefundReports
import FlexyVotes.Payments.Discounts
import FlexyVotes.Payments.FourEyes
import FlexyVotes.Lib.Conduct
import FlexyVotes.Elections.Approvals
import FlexyVotes.Lib.Locks
import FlexyVotes.Core.OtpCalls
import FlexyVotes.Lib.Telling
import FlexyVotes.Payments.Replays
import FlexyVotes.Payments.Delivery
import FlexyVotes.Elections.Disclosure
import FlexyVotes.Elections.Suppression
import FlexyVotes.Elections.Rearranged
import FlexyVotes.Elections.Seats
import FlexyVotes.Elections.Referendums
import FlexyVotes.Elections.Paid
import FlexyVotes.Elections.Robust
import FlexyVotes.Lib.Chains
import FlexyVotes.Core.AuditChain
import FlexyVotes.Core.Rbac
import FlexyVotes.Core.Fields
import FlexyVotes.Core.Login
import FlexyVotes.Core.TotpCodes
import FlexyVotes.Lib.Counters
import FlexyVotes.Core.FailureCounts
import FlexyVotes.Lib.OneTime
import FlexyVotes.Core.RecoveryCodes
import FlexyVotes.Core.Idempotency
import FlexyVotes.Core.Rotation
import FlexyVotes.Elections.Votable
import FlexyVotes.Elections.Selections
import FlexyVotes.Elections.Differences
import FlexyVotes.Elections.Anonymity
import FlexyVotes.Elections.Documents
import FlexyVotes.Elections.Constituencies
import FlexyVotes.Elections.Editing
import FlexyVotes.Elections.Recounts
import FlexyVotes.Elections.Manual
import FlexyVotes.Elections.Accounts
import FlexyVotes.Elections.Sso
import FlexyVotes.Elections.Custody
import FlexyVotes.Billing.Calendar
import FlexyVotes.Billing.Service
import FlexyVotes.Billing.Usage
import FlexyVotes.Billing.Standing
import FlexyVotes.Billing.InvoiceNumbers
import FlexyVotes.Elections.BallotForm
import FlexyVotes.Elections.Reparenting
import FlexyVotes.Elections.Imports
import FlexyVotes.Elections.Batches
import FlexyVotes.Elections.Reimport
import FlexyVotes.Elections.Deadlocks
import FlexyVotes.Lib.Cache
import FlexyVotes.Core.RateLimit
import FlexyVotes.Lib.Entries
import FlexyVotes.Core.Outbound
import FlexyVotes.Core.Utils
import FlexyVotes.Notifications.Outbox
import FlexyVotes.Notifications.Delivery
import FlexyVotes.Elections.Shares
import FlexyVotes.Core.Sessions
import FlexyVotes.Elections.SecondFactor
import FlexyVotes.Payments.Inbox
